import Leitwerk.Lib.Runs
import Mathlib.Data.List.Nodup
/-!
# Requests that are replayed until they are answered

`ReplayingRequestBridge`. A request waits in the pending map until its response,
its own abort signal or `cancelAll` settles its promise, and is emitted again by
every `replay` until then. What `cancel` throws is swallowed.
-/

namespace Leitwerk.Worker.ReplayingRequests

open Runs

/-- `CorrelatedPayload`, with the rest of the payload. -/
structure Correlated (α : Type) where
  turnRecordId : String
  toolCallId : String
  body : α

/-- The arguments of `request`. -/
structure Request (α : Type) where
  payload : Correlated α
  signal : ℕ
  cancellationError : String

/-- `PendingRequest`, and the abort listener that belongs to it. The ticket is the
number of its promise. -/
structure PendingRequest (α : Type) where
  ticket : ℕ
  request : Request α

/-- How a promise was settled. -/
inductive Settlement (β ρ : Type)
  | response (payload : Correlated β) (result : Except String ρ)
  | aborted (signal : ℕ) (message : String)
  | cancelled (reason : String)
  | duplicate (message : String)
  | emitThrew (error : String)

structure Pledge (α β ρ : Type) where
  request : Request α
  settlement : Option (Settlement β ρ)

structure State (α β ρ : Type) where
  /-- The pending map, in the order of insertion. -/
  pending : List (PendingRequest α) := []
  listeners : List (PendingRequest α) := []
  /-- The promises that were returned, oldest first. -/
  promises : List (Pledge α β ρ) := []
  /-- The signals that were aborted. -/
  aborted : List ℕ := []

/-- Calls of the bridge, with what `emit` throws, and aborted signals. -/
inductive Event (α β : Type)
  | request (request : Request α) (emitThrows : Option String)
  | handle (payload : Correlated β)
  /-- `replay`; `emit` throws after this many calls. -/
  | replay (emitThrows : Option ℕ)
  | abort (signal : ℕ)
  | cancelAll (reason : String)

/-- Calls of `emit` and `cancel`. -/
inductive Output (α : Type)
  | emit (pending : PendingRequest α)
  | cancel (pending : PendingRequest α)

section Bridge

variable {α β ρ : Type}

def toolCallId (e : PendingRequest α) : String := e.request.payload.toolCallId

/-- `resolve` or `reject`: only the first call counts. -/
def settle (promises : List (Pledge α β ρ)) (ticket : ℕ) (settlement : Settlement β ρ) : List (Pledge α β ρ) :=
  promises.modify ticket fun p => { p with settlement := p.settlement.or (some settlement) }

def request (s : State α β ρ) (r : Request α) (emitThrows : Option String) : State α β ρ × List (Output α) :=
  if r.signal ∈ s.aborted then
    ({ s with promises := s.promises ++ [⟨r, some (.aborted r.signal r.cancellationError)⟩] }, [])
  else if s.pending.any fun e => toolCallId e = r.payload.toolCallId then
    ({ s with promises := s.promises ++ [⟨r, some (.duplicate s!"Duplicate in-flight request '{r.payload.toolCallId}'")⟩] }, [])
  else
    let entry : PendingRequest α := ⟨s.promises.length, r⟩
    let promises := s.promises ++ [⟨r, none⟩]
    -- the executor's exception rejects the promise, and nothing else is undone
    let promises := match emitThrows with
      | some error => settle promises entry.ticket (.emitThrew error)
      | none => promises
    ({ s with listeners := s.listeners ++ [entry], pending := s.pending ++ [entry], promises }, [.emit entry])

/-- `onAbort`. -/
def onAbort (s : State α β ρ) (e : PendingRequest α) : State α β ρ :=
  { s with
    pending := s.pending.filter fun e' => toolCallId e' ≠ toolCallId e
    promises := settle s.promises e.ticket (.aborted e.request.signal e.request.cancellationError) }

/-- The abort of a signal, which runs its listeners once. -/
def abort (s : State α β ρ) (signal : ℕ) : State α β ρ × List (Output α) :=
  if signal ∈ s.aborted then (s, [])
  else
    let fired := s.listeners.filter fun e => e.request.signal = signal
    let s := { s with aborted := signal :: s.aborted, listeners := s.listeners.filter fun e => e.request.signal ≠ signal }
    (fired.foldl onAbort s, fired.map .cancel)

variable (resolveResponse : Correlated β → Except String ρ)

/-- `handle`, with what it returns. -/
def handle (s : State α β ρ) (payload : Correlated β) : State α β ρ × Bool :=
  match s.pending.find? fun e => toolCallId e = payload.toolCallId with
  | none => (s, false)
  | some pending =>
    if pending.request.payload.turnRecordId ≠ payload.turnRecordId then (s, false)
    else
      ({ s with
          pending := s.pending.filter fun e => toolCallId e ≠ payload.toolCallId
          listeners := s.listeners.filter fun e => e.ticket ≠ pending.ticket
          promises := settle s.promises pending.ticket (.response payload (resolveResponse payload)) }, true)

/-- The loop of `cancelAll`. -/
def cancelOne (reason : String) (s : State α β ρ) (e : PendingRequest α) : State α β ρ :=
  { s with
    listeners := s.listeners.filter fun e' => e'.ticket ≠ e.ticket
    promises := settle s.promises e.ticket (.cancelled reason) }

def cancelAll (s : State α β ρ) (reason : String) : State α β ρ × List (Output α) :=
  ({ s.pending.foldl (cancelOne reason) s with pending := [] }, s.pending.map .cancel)

/-- The calls of `emit` that `replay` makes. -/
def replay (s : State α β ρ) (emitThrows : Option ℕ) : List (Output α) :=
  match emitThrows with
  | none => s.pending.map .emit
  | some calls => (s.pending.take (calls + 1)).map .emit

def next (s : State α β ρ) : Event α β → State α β ρ × List (Output α)
  | .request r emitThrows => request s r emitThrows
  | .handle payload => ((handle resolveResponse s payload).1, [])
  | .replay emitThrows => (s, replay s emitThrows)
  | .abort signal => abort s signal
  | .cancelAll reason => cancelAll s reason

/-- A step of the bridge. -/
def step : Step (State α β ρ) (Event α β) (Output α) := fun s e os t => next resolveResponse s e = (t, os)

end Bridge

/-! ## Unsettled promises -/

section Unsettled

variable {α β ρ : Type}

/-- The requests whose promises are unsettled, in the order they were made, the first of them with
ticket `k` or higher. -/
def unsettledFrom : ℕ → List (Pledge α β ρ) → List (PendingRequest α)
  | _, [] => []
  | k, p :: promises => (if p.settlement.isNone then [⟨k, p.request⟩] else []) ++ unsettledFrom (k + 1) promises

def unsettled (promises : List (Pledge α β ρ)) : List (PendingRequest α) := unsettledFrom 0 promises

theorem unsettledFrom_append (k : ℕ) (l l' : List (Pledge α β ρ)) :
    unsettledFrom k (l ++ l') = unsettledFrom k l ++ unsettledFrom (k + l.length) l' := by
  induction l generalizing k with
  | nil => rfl
  | cons p l ih => simp [unsettledFrom, ih, Nat.add_assoc, Nat.add_comm 1]

theorem unsettled_concat (l : List (Pledge α β ρ)) (p : Pledge α β ρ) :
    unsettled (l ++ [p]) = unsettled l ++ if p.settlement.isNone then [⟨l.length, p.request⟩] else [] := by
  simp [unsettled, unsettledFrom_append, unsettledFrom]

theorem mem_unsettledFrom {k : ℕ} {l : List (Pledge α β ρ)} {e : PendingRequest α} :
    e ∈ unsettledFrom k l ↔ ∃ i p, l[i]? = some p ∧ p.settlement = none ∧ p.request = e.request ∧ e.ticket = k + i := by
  induction l generalizing k with
  | nil => simp [unsettledFrom]
  | cons q l ih =>
    rw [unsettledFrom, List.mem_append, ih]
    constructor
    · rintro (h | ⟨i, p, hp, hsettlement, hrequest, hticket⟩)
      · split at h
        · rename_i hnone
          obtain rfl := List.mem_singleton.1 h
          exact ⟨0, q, rfl, by simpa using hnone, rfl, rfl⟩
        · simp at h
      · exact ⟨i + 1, p, hp, hsettlement, hrequest, by omega⟩
    · rintro ⟨i, p, hp, hsettlement, hrequest, hticket⟩
      cases i with
      | zero =>
        obtain rfl : q = p := by simpa using hp
        left
        rw [if_pos (by simp [hsettlement])]
        obtain ⟨t, r⟩ := e
        simp_all
      | succ i => exact .inr ⟨i, p, by simpa using hp, hsettlement, hrequest, by omega⟩

theorem mem_unsettled {l : List (Pledge α β ρ)} {e : PendingRequest α} :
    e ∈ unsettled l ↔ ∃ p, l[e.ticket]? = some p ∧ p.settlement = none ∧ p.request = e.request := by
  rw [unsettled, mem_unsettledFrom]
  constructor
  · rintro ⟨i, p, hp, hsettlement, hrequest, hticket⟩
    obtain rfl : e.ticket = i := by omega
    exact ⟨p, hp, hsettlement, hrequest⟩
  · rintro ⟨p, hp, hsettlement, hrequest⟩
    exact ⟨e.ticket, p, hp, hsettlement, hrequest, by omega⟩

theorem unsettledFrom_settle (k i : ℕ) (l : List (Pledge α β ρ)) (o : Settlement β ρ) :
    unsettledFrom k (settle l i o) = (unsettledFrom k l).filter fun e => e.ticket ≠ k + i := by
  induction l generalizing k i with
  | nil => simp [settle, unsettledFrom]
  | cons p l ih =>
    have hlater : ∀ j e, e ∈ unsettledFrom (j + 1) l → e.ticket ≠ j := by
      intro j e he
      obtain ⟨i, -, -, -, -, hticket⟩ := mem_unsettledFrom.1 he
      omega
    cases i with
    | zero =>
      have hrest : (unsettledFrom (k + 1) l).filter (fun e => e.ticket ≠ k + 0) = unsettledFrom (k + 1) l :=
        List.filter_eq_self.2 fun e he => by simpa using hlater k e he
      rw [unsettledFrom, List.filter_append, hrest]
      cases hsettlement : p.settlement <;> simp [settle, unsettledFrom, hsettlement]
    | succ i =>
      have hrest := ih (k + 1) i
      rw [unsettledFrom, List.filter_append, show k + (i + 1) = k + 1 + i by omega, ← hrest]
      have hhead : (settle (p :: l) (i + 1) o) = p :: settle l i o := by simp [settle]
      rw [hhead, unsettledFrom]
      congr 1
      split
      · exact (List.filter_eq_self.2 fun e he => by simp [List.mem_singleton.1 he]; omega).symm
      · rfl

theorem unsettled_settle (l : List (Pledge α β ρ)) (ticket : ℕ) (o : Settlement β ρ) :
    unsettled (settle l ticket o) = (unsettled l).filter fun e => e.ticket ≠ ticket := by
  simpa [unsettled] using unsettledFrom_settle 0 ticket l o

/-- The promises of all these are settled, in turn. -/
def settleAll (cause : PendingRequest α → Settlement β ρ) (promises : List (Pledge α β ρ)) (l : List (PendingRequest α)) :
    List (Pledge α β ρ) :=
  l.foldl (fun promises e => settle promises e.ticket (cause e)) promises

theorem unsettled_settleAll (cause : PendingRequest α → Settlement β ρ) (promises : List (Pledge α β ρ))
    (l : List (PendingRequest α)) :
    unsettled (settleAll cause promises l) = (unsettled promises).filter fun e => ∀ e' ∈ l, e.ticket ≠ e'.ticket := by
  induction l generalizing promises with
  | nil => simp [settleAll]
  | cons a l ih =>
    rw [settleAll, List.foldl_cons, ← settleAll, ih, unsettled_settle, List.filter_filter]
    apply List.filter_congr
    intro e _
    simp [Bool.and_comm]

end Unsettled

/-! ## Promises after a settlement -/

section Settling

variable {α β ρ : Type}

theorem settle_cases {l : List (Pledge α β ρ)} {i t : ℕ} {o : Settlement β ρ} {p' : Pledge α β ρ}
    (h : (settle l i o)[t]? = some p') :
    l[t]? = some p' ∨ t = i ∧ ∃ p, l[t]? = some p ∧ p.settlement = none ∧ p' = { p with settlement := some o } := by
  rw [settle, List.getElem?_modify] at h
  obtain ⟨p, hp, hp'⟩ := Option.map_eq_some_iff.1 h
  by_cases hi : i = t
  · rw [if_pos hi] at hp'
    cases hsettlement : p.settlement with
    | none => exact .inr ⟨hi.symm, p, hp, hsettlement, by rw [← hp', hsettlement]; rfl⟩
    | some o' =>
      refine .inl (hp.trans (congrArg some (hp' ▸ ?_)))
      obtain ⟨r, x⟩ := p
      simp_all
  · rw [if_neg hi] at hp'
    exact .inl (hp.trans (congrArg some hp'))

theorem settleAll_cases {cause : PendingRequest α → Settlement β ρ} {es : List (PendingRequest α)} {l : List (Pledge α β ρ)}
    {t : ℕ} {p' : Pledge α β ρ} (h : (settleAll cause l es)[t]? = some p') :
    l[t]? = some p' ∨
      ∃ e ∈ es, t = e.ticket ∧ ∃ p, l[t]? = some p ∧ p.settlement = none ∧ p' = { p with settlement := some (cause e) } := by
  induction es generalizing l with
  | nil => exact .inl h
  | cons e es ih =>
    rcases ih h with h | ⟨e', he', hticket, p, hp, hnone, rfl⟩
    · rcases settle_cases h with h | ⟨hticket, hp⟩
      · exact .inl h
      · exact .inr ⟨e, by simp, hticket, hp⟩
    · rcases settle_cases hp with hp | ⟨-, q, -, -, rfl⟩
      · exact .inr ⟨e', List.mem_cons_of_mem _ he', hticket, p, hp, hnone, rfl⟩
      · cases hnone

/-- A promise keeps how it was settled. -/
theorem settle_keeps {l : List (Pledge α β ρ)} {t : ℕ} {p : Pledge α β ρ} {o : Settlement β ρ} (h : l[t]? = some p)
    (hsettled : p.settlement = some o) (i : ℕ) (o' : Settlement β ρ) : (settle l i o')[t]? = some p := by
  rw [settle, List.getElem?_modify, h]
  obtain ⟨r, x⟩ := p
  by_cases hi : i = t <;> simp_all

theorem settleAll_keeps {l : List (Pledge α β ρ)} {t : ℕ} {p : Pledge α β ρ} {o : Settlement β ρ} (h : l[t]? = some p)
    (hsettled : p.settlement = some o) (cause : PendingRequest α → Settlement β ρ) (es : List (PendingRequest α)) :
    (settleAll cause l es)[t]? = some p := by
  induction es generalizing l with
  | nil => exact h
  | cons e es ih => exact ih (settle_keeps h hsettled _ _)

end Settling

/-! ## What a step does -/

section Steps

variable {α β ρ : Type} {resolveResponse : Correlated β → Except String ρ} {s s' : State α β ρ}

/-- A request whose promise is not rejected at once. -/
def Accepts (s : State α β ρ) (r : Request α) : Prop :=
  r.signal ∉ s.aborted ∧ ∀ e ∈ s.pending, toolCallId e ≠ r.payload.toolCallId

theorem request_accepted {r : Request α} (h : Accepts s r) (emitThrows : Option String) :
    request s r emitThrows =
      ({ s with
          listeners := s.listeners ++ [⟨s.promises.length, r⟩]
          pending := s.pending ++ [⟨s.promises.length, r⟩]
          promises := match emitThrows with
            | some error => settle (s.promises ++ [⟨r, none⟩]) s.promises.length (.emitThrew error)
            | none => s.promises ++ [⟨r, none⟩] }, [.emit ⟨s.promises.length, r⟩]) := by
  have hany : ¬ (s.pending.any fun e => toolCallId e = r.payload.toolCallId) = true := by
    rw [List.any_eq_true]
    rintro ⟨e, he, heq⟩
    exact h.2 e he (of_decide_eq_true heq)
  rw [request, if_neg h.1, if_neg hany]

/-- Why a request is refused. -/
def Refused (s : State α β ρ) (r : Request α) (o : Settlement β ρ) : Prop :=
  r.signal ∈ s.aborted ∧ o = .aborted r.signal r.cancellationError ∨
    (∃ message, o = .duplicate message) ∧ ∃ e ∈ s.pending, toolCallId e = r.payload.toolCallId

theorem request_refused {r : Request α} (h : ¬ Accepts s r) (emitThrows : Option String) :
    ∃ o, request s r emitThrows = ({ s with promises := s.promises ++ [⟨r, some o⟩] }, []) ∧ Refused s r o := by
  by_cases hsignal : r.signal ∈ s.aborted
  · exact ⟨_, by rw [request, if_pos hsignal], .inl ⟨hsignal, rfl⟩⟩
  · by_cases hany : (s.pending.any fun e => toolCallId e = r.payload.toolCallId) = true
    · refine ⟨_, by rw [request, if_neg hsignal, if_pos hany], .inr ⟨⟨_, rfl⟩, ?_⟩⟩
      obtain ⟨e, he, heq⟩ := List.any_eq_true.1 hany
      exact ⟨e, he, of_decide_eq_true heq⟩
    · refine absurd ⟨hsignal, fun e he heq => hany ?_⟩ h
      exact List.any_eq_true.2 ⟨e, he, decide_eq_true heq⟩

theorem foldl_onAbort (l : List (PendingRequest α)) (s : State α β ρ) :
    l.foldl onAbort s = { s with
      pending := s.pending.filter fun e => ∀ e' ∈ l, toolCallId e ≠ toolCallId e'
      promises := settleAll (fun e => .aborted e.request.signal e.request.cancellationError) s.promises l } := by
  induction l generalizing s with
  | nil => simp [settleAll]
  | cons a l ih =>
    rw [List.foldl_cons, ih, onAbort]
    simp only [List.filter_filter, settleAll, List.foldl_cons]
    congr 1
    apply List.filter_congr
    intro e _
    simp [Bool.and_comm]

theorem foldl_cancelOne (reason : String) (l : List (PendingRequest α)) (s : State α β ρ) :
    l.foldl (cancelOne reason) s = { s with
      listeners := s.listeners.filter fun e => ∀ e' ∈ l, e.ticket ≠ e'.ticket
      promises := settleAll (fun _ => .cancelled reason) s.promises l } := by
  induction l generalizing s with
  | nil => simp [settleAll]
  | cons a l ih =>
    rw [List.foldl_cons, ih, cancelOne]
    simp only [List.filter_filter, settleAll, List.foldl_cons]
    congr 1
    apply List.filter_congr
    intro e _
    simp [Bool.and_comm]

/-- What `handle` finds. -/
theorem handle_cases (s : State α β ρ) (q : Correlated β) :
    handle resolveResponse s q = (s, false) ∨
      ∃ e ∈ s.pending, toolCallId e = q.toolCallId ∧ e.request.payload.turnRecordId = q.turnRecordId ∧
        handle resolveResponse s q = ({ s with
          pending := s.pending.filter fun e' => toolCallId e' ≠ q.toolCallId
          listeners := s.listeners.filter fun e' => e'.ticket ≠ e.ticket
          promises := settle s.promises e.ticket (.response q (resolveResponse q)) }, true) := by
  unfold handle
  split
  · exact .inl rfl
  · rename_i e hfind
    by_cases hturn : e.request.payload.turnRecordId = q.turnRecordId
    · refine .inr ⟨e, List.mem_of_find?_eq_some hfind, by simpa using List.find?_some hfind, hturn, ?_⟩
      rw [if_neg (not_not.2 hturn)]
    · exact .inl (if_pos hturn)

/-! ## The invariant -/

/-- The pending map holds the requests whose promises are unsettled, in their order, and their
listeners. -/
structure Inv (s : State α β ρ) : Prop where
  pending : s.pending = unsettled s.promises
  listeners : s.listeners = s.pending
  distinct : (s.pending.map toolCallId).Nodup
  live : ∀ e ∈ s.pending, e.request.signal ∉ s.aborted

theorem Inv.start : Inv ({} : State α β ρ) :=
  ⟨rfl, rfl, List.nodup_nil, by simp⟩

theorem Inv.mem_pending (h : Inv s) {e : PendingRequest α} :
    e ∈ s.pending ↔ ∃ p, s.promises[e.ticket]? = some p ∧ p.settlement = none ∧ p.request = e.request := by
  rw [h.pending, mem_unsettled]

/-- A tool call id belongs to one pending promise. -/
theorem Inv.same_iff (h : Inv s) {e e' : PendingRequest α} (he : e ∈ s.pending) (he' : e' ∈ s.pending) :
    toolCallId e = toolCallId e' ↔ e.ticket = e'.ticket := by
  constructor
  · intro heq
    rw [List.inj_on_of_nodup_map h.distinct he he' heq]
  · intro hticket
    obtain ⟨p, hp, -, hrequest⟩ := h.mem_pending.1 he
    obtain ⟨p', hp', -, hrequest'⟩ := h.mem_pending.1 he'
    rw [hticket, hp'] at hp
    obtain rfl := Option.some.inj hp
    rw [toolCallId, toolCallId, ← hrequest, ← hrequest']

theorem nodup_filter {l : List (PendingRequest α)} (h : (l.map toolCallId).Nodup) (q : PendingRequest α → Bool) :
    ((l.filter q).map toolCallId).Nodup :=
  h.sublist (List.filter_sublist.map _)

theorem Inv.accepted (h : Inv s) {r : Request α} (haccepts : Accepts s r) :
    Inv { s with
      listeners := s.listeners ++ [⟨s.promises.length, r⟩]
      pending := s.pending ++ [⟨s.promises.length, r⟩]
      promises := s.promises ++ [⟨r, none⟩] } where
  pending := by
    show s.pending ++ _ = unsettled (s.promises ++ _)
    rw [unsettled_concat, ← h.pending]
    simp
  listeners := by
    show s.listeners ++ _ = s.pending ++ _
    rw [h.listeners]
  distinct := by
    simp only [List.map_append, List.map_cons, List.map_nil]
    refine List.nodup_append'.2 ⟨h.distinct, List.nodup_singleton _, ?_⟩
    simp only [List.disjoint_singleton, List.mem_map, not_exists, not_and]
    exact fun e he => haccepts.2 e he
  live := by
    intro e he
    rcases List.mem_append.1 he with he | he
    · exact h.live e he
    · obtain rfl := List.mem_singleton.1 he
      exact haccepts.1

theorem Inv.refused (h : Inv s) (r : Request α) (o : Settlement β ρ) :
    Inv { s with promises := s.promises ++ [⟨r, some o⟩] } where
  pending := by
    show s.pending = unsettled (s.promises ++ _)
    rw [unsettled_concat, ← h.pending]
    simp
  listeners := h.listeners
  distinct := h.distinct
  live := h.live

theorem Inv.handled (h : Inv s) {q : Correlated β} {e : PendingRequest α} (he : e ∈ s.pending) (hid : toolCallId e = q.toolCallId)
    (o : Settlement β ρ) :
    Inv { s with
      pending := s.pending.filter fun e' => toolCallId e' ≠ q.toolCallId
      listeners := s.listeners.filter fun e' => e'.ticket ≠ e.ticket
      promises := settle s.promises e.ticket o } := by
  -- the entry of the id is the entry of the ticket
  have hfilter : (s.pending.filter fun e' => toolCallId e' ≠ q.toolCallId) = s.pending.filter fun e' => e'.ticket ≠ e.ticket := by
    apply List.filter_congr
    intro e' he'
    rw [← hid]
    simp [h.same_iff he' he]
  refine ⟨?_, ?_, nodup_filter h.distinct _, fun e' he' => h.live e' (List.mem_of_mem_filter he')⟩
  · show List.filter _ s.pending = unsettled (settle _ _ _)
    rw [unsettled_settle, ← h.pending, hfilter]
  · show List.filter _ s.listeners = List.filter _ s.pending
    rw [hfilter, h.listeners]

theorem Inv.abort (h : Inv s) (signal : ℕ) : Inv (abort s signal).1 := by
  unfold ReplayingRequests.abort
  by_cases haborted : signal ∈ s.aborted
  · rw [if_pos haborted]
    exact h
  · rw [if_neg haborted]
    dsimp only
    rw [foldl_onAbort, h.listeners]
    -- both the map and the promises lose the entries of the signal
    have hticket : ∀ e ∈ s.pending, (∀ e' ∈ s.pending.filter (fun e => e.request.signal = signal), e.ticket ≠ e'.ticket) ↔
        e.request.signal ≠ signal := by
      intro e he
      constructor
      · exact fun hall hsignal => hall e (List.mem_filter.2 ⟨he, decide_eq_true hsignal⟩) rfl
      · intro hsignal e' he' heq
        obtain ⟨he', hsignal'⟩ := List.mem_filter.1 he'
        have hsame := (h.same_iff he he').2 heq
        rw [List.inj_on_of_nodup_map h.distinct he he' hsame] at hsignal
        exact hsignal (of_decide_eq_true hsignal')
    have hfilter : (s.pending.filter fun e =>
          decide (∀ e' ∈ s.pending.filter (fun e : PendingRequest α => decide (e.request.signal = signal)), toolCallId e ≠ toolCallId e')) =
        s.pending.filter fun e => e.request.signal ≠ signal := by
      apply List.filter_congr
      intro e he
      rw [decide_eq_decide, ← hticket e he]
      constructor
      · exact fun hall e' he' => mt (h.same_iff he (List.mem_of_mem_filter he')).2 (hall e' he')
      · exact fun hall e' he' => mt (h.same_iff he (List.mem_of_mem_filter he')).1 (hall e' he')
    refine ⟨?_, hfilter.symm, nodup_filter h.distinct _, fun e he => ?_⟩
    · show List.filter _ s.pending = unsettled (settleAll _ _ _)
      rw [unsettled_settleAll, ← h.pending, hfilter]
      apply List.filter_congr
      intro e he
      rw [decide_eq_decide, hticket e he]
    · change e ∈ List.filter _ s.pending at he
      rw [hfilter] at he
      obtain ⟨he, hsignal⟩ := List.mem_filter.1 he
      rw [List.mem_cons, not_or]
      exact ⟨of_decide_eq_true hsignal, h.live e he⟩

theorem Inv.cancelAll (h : Inv s) (reason : String) : Inv (cancelAll s reason).1 := by
  have hempty : ∀ l : List (PendingRequest α), l = s.pending → (l.filter fun e => ∀ e' ∈ s.pending, e.ticket ≠ e'.ticket) = [] := by
    rintro l rfl
    exact List.filter_eq_nil_iff.2 fun e he => by simpa using ⟨e, he, rfl⟩
  unfold ReplayingRequests.cancelAll
  dsimp only
  rw [foldl_cancelOne]
  refine ⟨?_, hempty _ h.listeners, List.nodup_nil, by simp⟩
  show [] = unsettled (settleAll _ _ _)
  rw [unsettled_settleAll, hempty _ h.pending.symm]

/-- No accepted request makes `emit` throw. -/
def Calm (s : State α β ρ) (e : Event α β) : Prop := ∀ r error, e = .request r (some error) → ¬ Accepts s r

/-- Every step of which that is true keeps the invariant. -/
theorem Inv.next (h : Inv s) {e : Event α β} (hcalm : Calm s e) : Inv (next resolveResponse s e).1 := by
  cases e with
  | request r emitThrows =>
    show Inv (ReplayingRequests.request s r emitThrows).1
    by_cases haccepts : Accepts s r
    · cases emitThrows with
      | some error => exact absurd haccepts (hcalm r error rfl)
      | none =>
        rw [request_accepted haccepts]
        exact h.accepted haccepts
    · obtain ⟨o, hrequest, -⟩ := request_refused haccepts emitThrows
      rw [hrequest]
      exact h.refused r o
  | handle q =>
    show Inv (handle resolveResponse s q).1
    rcases handle_cases s q with hhandle | ⟨e, he, hid, -, hhandle⟩
    · rw [hhandle]
      exact h
    · rw [hhandle]
      exact h.handled he hid _
  | replay emitThrows => exact h
  | abort signal => exact h.abort signal
  | cancelAll reason => exact h.cancelAll reason

/-- What settles the promise of a pending request: a response with its ids, its own signal, or
`cancelAll`. -/
inductive Settles (resolveResponse : Correlated β → Except String ρ) : Event α β → Request α → Settlement β ρ → Prop
  | response {r : Request α} {q : Correlated β} (toolCall : q.toolCallId = r.payload.toolCallId)
      (turnRecord : q.turnRecordId = r.payload.turnRecordId) :
      Settles resolveResponse (.handle q) r (.response q (resolveResponse q))
  | abort (r : Request α) : Settles resolveResponse (.abort r.signal) r (.aborted r.signal r.cancellationError)
  | cancelAll (r : Request α) (reason : String) : Settles resolveResponse (.cancelAll reason) r (.cancelled reason)

/-- A promise after a step: it was there before, or the event settles it, or it is that of a new request. -/
theorem next_promises (h : Inv s) {e : Event α β} (hcalm : Calm s e) {t : ℕ} {p' : Pledge α β ρ}
    (hp' : (next resolveResponse s e).1.promises[t]? = some p') :
    s.promises[t]? = some p' ∨
    (∃ p o, s.promises[t]? = some p ∧ p.settlement = none ∧ p' = { p with settlement := some o } ∧
      Settles resolveResponse e p.request o) ∨
    t = s.promises.length ∧ ∀ o, p'.settlement = some o → Refused s p'.request o := by
  -- the promise of a pending request is that request's
  have hrequest : ∀ {e : PendingRequest α} {p : Pledge α β ρ}, e ∈ s.pending → s.promises[e.ticket]? = some p → p.request = e.request := by
    intro e p he hp
    obtain ⟨q, hq, -, hrequest⟩ := h.mem_pending.1 he
    rw [hp] at hq
    exact Option.some.inj hq ▸ hrequest
  have hnew : ∀ {q : Pledge α β ρ}, (s.promises ++ [q])[t]? = some p' → s.promises[t]? = some p' ∨ t = s.promises.length ∧ p' = q := by
    intro q hq
    rcases Nat.lt_or_ge t s.promises.length with hlt | hge
    · exact .inl (by rwa [List.getElem?_append_left hlt] at hq)
    · rw [List.getElem?_append_right hge] at hq
      obtain ⟨ht, hq⟩ := List.getElem?_eq_some_iff.1 hq
      simp only [List.length_singleton] at ht
      exact .inr ⟨by omega, by simpa using hq.symm⟩
  cases e with
  | request r emitThrows =>
    change (ReplayingRequests.request s r emitThrows).1.promises[t]? = some p' at hp'
    by_cases haccepts : Accepts s r
    · cases emitThrows with
      | some error => exact absurd haccepts (hcalm r error rfl)
      | none =>
        rw [request_accepted haccepts] at hp'
        rcases hnew hp' with hp' | ⟨ht, rfl⟩
        · exact .inl hp'
        · exact .inr (.inr ⟨ht, nofun⟩)
    · obtain ⟨o, hrequest, hrefused⟩ := request_refused haccepts emitThrows
      rw [hrequest] at hp'
      rcases hnew hp' with hp' | ⟨ht, rfl⟩
      · exact .inl hp'
      · exact .inr (.inr ⟨ht, fun o' ho' => Option.some.inj ho' ▸ hrefused⟩)
  | handle q =>
    change (handle resolveResponse s q).1.promises[t]? = some p' at hp'
    rcases handle_cases s q with hhandle | ⟨e, he, hid, hturn, hhandle⟩
    · rw [hhandle] at hp'
      exact .inl hp'
    · rw [hhandle] at hp'
      rcases settle_cases hp' with hp' | ⟨rfl, p, hp, hnone, hsettled⟩
      · exact .inl hp'
      · refine .inr (.inl ⟨p, _, hp, hnone, hsettled, ?_⟩)
        rw [hrequest he hp]
        exact .response hid.symm hturn.symm
  | replay emitThrows => exact .inl hp'
  | abort signal =>
    change (ReplayingRequests.abort s signal).1.promises[t]? = some p' at hp'
    unfold ReplayingRequests.abort at hp'
    split at hp'
    · exact .inl hp'
    · dsimp only at hp'
      rw [foldl_onAbort] at hp'
      rcases settleAll_cases hp' with hp' | ⟨e, he, rfl, p, hp, hnone, hsettled⟩
      · exact .inl hp'
      · rw [h.listeners] at he
        obtain ⟨he, hsignal⟩ := List.mem_filter.1 he
        refine .inr (.inl ⟨p, _, hp, hnone, hsettled, ?_⟩)
        rw [hrequest he hp, ← of_decide_eq_true hsignal]
        exact .abort _
  | cancelAll reason =>
    change (ReplayingRequests.cancelAll s reason).1.promises[t]? = some p' at hp'
    unfold ReplayingRequests.cancelAll at hp'
    rw [foldl_cancelOne] at hp'
    rcases settleAll_cases hp' with hp' | ⟨e, -, rfl, p, hp, hnone, hsettled⟩
    · exact .inl hp'
    · exact .inr (.inl ⟨p, _, hp, hnone, hsettled, .cancelAll _ _⟩)

/-- A promise that was settled stays as it is. -/
theorem next_keeps {e : Event α β} {t : ℕ} {p : Pledge α β ρ} {o : Settlement β ρ} (hp : s.promises[t]? = some p)
    (ho : p.settlement = some o) : (next resolveResponse s e).1.promises[t]? = some p := by
  have happend : ∀ q : Pledge α β ρ, (s.promises ++ [q])[t]? = some p := fun q => by
    rw [List.getElem?_append_left (List.getElem?_eq_some_iff.1 hp).1, hp]
  cases e with
  | request r emitThrows =>
    show (ReplayingRequests.request s r emitThrows).1.promises[t]? = some p
    by_cases haccepts : Accepts s r
    · rw [request_accepted haccepts]
      cases emitThrows with
      | none => exact happend _
      | some error => exact settle_keeps (happend _) ho _ _
    · obtain ⟨o, hrequest, -⟩ := request_refused haccepts emitThrows
      rw [hrequest]
      exact happend _
  | handle q =>
    show (handle resolveResponse s q).1.promises[t]? = some p
    rcases handle_cases s q with hhandle | ⟨e, -, -, -, hhandle⟩
    · rw [hhandle]
      exact hp
    · rw [hhandle]
      exact settle_keeps hp ho _ _
  | replay emitThrows => exact hp
  | abort signal =>
    show (ReplayingRequests.abort s signal).1.promises[t]? = some p
    unfold ReplayingRequests.abort
    split
    · exact hp
    · dsimp only
      rw [foldl_onAbort]
      exact settleAll_keeps hp ho _ _
  | cancelAll reason =>
    show (ReplayingRequests.cancelAll s reason).1.promises[t]? = some p
    unfold ReplayingRequests.cancelAll
    rw [foldl_cancelOne]
    exact settleAll_keeps hp ho _ _

/-- What is emitted is pending, or new. -/
theorem next_emits {e : Event α β} {x : PendingRequest α} (hx : .emit x ∈ (next resolveResponse s e).2) :
    x ∈ s.pending ∨ x.ticket = s.promises.length := by
  cases e with
  | request r emitThrows =>
    change .emit x ∈ (ReplayingRequests.request s r emitThrows).2 at hx
    by_cases haccepts : Accepts s r
    · rw [request_accepted haccepts] at hx
      obtain rfl : x = _ := by simpa using hx
      exact .inr rfl
    · obtain ⟨o, hrequest, -⟩ := request_refused haccepts emitThrows
      rw [hrequest] at hx
      simp at hx
  | handle q => simp [next] at hx
  | replay emitThrows =>
    left
    cases emitThrows with
    | none =>
      obtain ⟨y, hy, heq⟩ := List.mem_map.1 (show Output.emit x ∈ s.pending.map .emit from hx)
      exact Output.emit.inj heq ▸ hy
    | some calls =>
      obtain ⟨y, hy, heq⟩ := List.mem_map.1 (show Output.emit x ∈ (s.pending.take (calls + 1)).map .emit from hx)
      exact Output.emit.inj heq ▸ List.mem_of_mem_take hy
  | abort signal =>
    change .emit x ∈ (ReplayingRequests.abort s signal).2 at hx
    unfold ReplayingRequests.abort at hx
    split at hx <;> simp at hx
  | cancelAll reason =>
    simp [next, ReplayingRequests.cancelAll] at hx

/-- What is settled is not emitted. -/
theorem Inv.silent (h : Inv s) {e : Event α β} {t : ℕ} {p : Pledge α β ρ} {o : Settlement β ρ} (hp : s.promises[t]? = some p)
    (ho : p.settlement = some o) {x : PendingRequest α}
    (hx : .emit x ∈ (ReplayingRequests.next resolveResponse s e).2) : x.ticket ≠ t := by
  rintro rfl
  rcases next_emits hx with hpending | hnew
  · obtain ⟨q, hq, hnone, -⟩ := h.mem_pending.1 hpending
    rw [hp] at hq
    obtain rfl := Option.some.inj hq
    cases hnone.symm.trans ho
  · have hlt := (List.getElem?_eq_some_iff.1 hp).1
    omega

/-! ## Runs -/

/-- A run in which no accepted request makes `emit` throw. -/
abbrev CalmRun (resolveResponse : Correlated β → Except String ρ) (s : State α β ρ) (h : Hist (Event α β) (Output α))
    (s' : State α β ρ) : Prop :=
  Run (Guard (step resolveResponse) Calm) s h s'

theorem CalmRun.inv {h : Hist (Event α β) (Output α)} (hrun : CalmRun resolveResponse s h s') (hs : Inv s) : Inv s' := by
  refine Run.inv hrun Inv hs fun a e os b ha hstep => ?_
  have hnext : Inv (next resolveResponse a e).1 := ha.next hstep.2
  rwa [show next resolveResponse a e = (b, os) from hstep.1] at hnext

/-- How the promises of a run were settled, as its history shows. -/
structure Traced (resolveResponse : Correlated β → Except String ρ) (h : Hist (Event α β) (Output α)) (s : State α β ρ) : Prop where
  aborted : ∀ signal ∈ s.aborted, .abort signal ∈ events h
  settled : ∀ (t : ℕ) (p : Pledge α β ρ) (o : Settlement β ρ), s.promises[t]? = some p → p.settlement = some o →
    (∃ e ∈ events h, Settles resolveResponse e p.request o) ∨
      (∃ message, o = .duplicate message) ∧
        ∃ t' < t, ∃ p', s.promises[t']? = some p' ∧ p'.request.payload.toolCallId = p.request.payload.toolCallId

theorem abort_aborted {e : Event α β} {signal : ℕ} (h : signal ∈ (next resolveResponse s e).1.aborted) :
    signal ∈ s.aborted ∨ e = .abort signal := by
  cases e with
  | request r emitThrows =>
    change signal ∈ (ReplayingRequests.request s r emitThrows).1.aborted at h
    by_cases haccepts : Accepts s r
    · rw [request_accepted haccepts] at h
      exact .inl h
    · obtain ⟨o, hrequest, -⟩ := request_refused haccepts emitThrows
      rw [hrequest] at h
      exact .inl h
  | handle q =>
    change signal ∈ (handle resolveResponse s q).1.aborted at h
    rcases handle_cases s q with hhandle | ⟨e, -, -, -, hhandle⟩ <;> rw [hhandle] at h <;> exact .inl h
  | replay emitThrows => exact .inl h
  | abort signal' =>
    change signal ∈ (ReplayingRequests.abort s signal').1.aborted at h
    unfold ReplayingRequests.abort at h
    split at h
    · exact .inl h
    · dsimp only at h
      rw [foldl_onAbort] at h
      rcases List.mem_cons.1 h with rfl | h
      · exact .inr rfl
      · exact .inl h
  | cancelAll reason =>
    change signal ∈ (ReplayingRequests.cancelAll s reason).1.aborted at h
    unfold ReplayingRequests.cancelAll at h
    rw [foldl_cancelOne] at h
    exact .inl h

theorem settle_requests (l : List (Pledge α β ρ)) (i : ℕ) (o : Settlement β ρ) :
    (settle l i o).map Pledge.request = l.map Pledge.request := by
  apply List.ext_getElem?
  intro j
  simp only [settle, List.getElem?_map, List.getElem?_modify]
  cases l[j]? with
  | none => rfl
  | some q => by_cases hij : i = j <;> simp [hij]

theorem settleAll_requests (cause : PendingRequest α → Settlement β ρ) (l : List (Pledge α β ρ)) (es : List (PendingRequest α)) :
    (settleAll cause l es).map Pledge.request = l.map Pledge.request := by
  induction es generalizing l with
  | nil => rfl
  | cons e es ih => exact (ih _).trans (settle_requests l _ _)

/-- Requests keep their place among the promises. -/
theorem next_requests (resolveResponse : Correlated β → Except String ρ) (s : State α β ρ) (e : Event α β) :
    s.promises.map Pledge.request <+: (next resolveResponse s e).1.promises.map Pledge.request := by
  cases e with
  | request r emitThrows =>
    show _ <+: (ReplayingRequests.request s r emitThrows).1.promises.map _
    by_cases haccepts : Accepts s r
    · rw [request_accepted haccepts]
      cases emitThrows with
      | none => simp
      | some error =>
        dsimp only
        rw [settle_requests]
        simp
    · obtain ⟨o, hrequest, -⟩ := request_refused haccepts emitThrows
      rw [hrequest]
      simp
  | handle q =>
    show _ <+: (handle resolveResponse s q).1.promises.map _
    rcases handle_cases s q with hhandle | ⟨e, -, -, -, hhandle⟩
    · exact hhandle.symm ▸ List.prefix_rfl
    · have hsettled := settle_requests s.promises e.ticket (.response q (resolveResponse q))
      rw [hhandle]
      exact hsettled.symm ▸ List.prefix_rfl
  | replay emitThrows => exact List.prefix_rfl
  | abort signal =>
    show _ <+: (ReplayingRequests.abort s signal).1.promises.map _
    unfold ReplayingRequests.abort
    split
    · exact List.prefix_rfl
    · simp only [foldl_onAbort, settleAll_requests]
      exact List.prefix_rfl
  | cancelAll reason =>
    show _ <+: (ReplayingRequests.cancelAll s reason).1.promises.map _
    unfold ReplayingRequests.cancelAll
    simp only [foldl_cancelOne, settleAll_requests]
    exact List.prefix_rfl

theorem Traced.next {h : Hist (Event α β) (Output α)} (hs : Inv s) (htraced : Traced resolveResponse h s) {e : Event α β}
    (hcalm : Calm s e) (os : List (Output α)) :
    Traced resolveResponse (h ++ [(e, os)]) (ReplayingRequests.next resolveResponse s e).1 where
  aborted signal hsignal := by
    rw [events_snoc, List.mem_append, List.mem_singleton]
    rcases abort_aborted hsignal with hsignal | rfl
    · exact .inl (htraced.aborted signal hsignal)
    · exact .inr rfl
  settled t p o hp ho := by
    have hearlier : ∀ {t' : ℕ} {p' : Pledge α β ρ}, s.promises[t']? = some p' →
        ∃ q, (ReplayingRequests.next resolveResponse s e).1.promises[t']? = some q ∧ q.request = p'.request := by
      intro t' p' hp'
      obtain ⟨l, hl⟩ := next_requests resolveResponse s e
      have hrequest : (s.promises.map Pledge.request ++ l)[t']? = some p'.request := by
        rw [List.getElem?_append_left (by simpa using (List.getElem?_eq_some_iff.1 hp').1), List.getElem?_map, hp']
        rfl
      rw [hl, List.getElem?_map] at hrequest
      exact Option.map_eq_some_iff.1 hrequest
    rcases next_promises hs hcalm hp with hp' | ⟨q, o', hq, hnone, rfl, hsettles⟩ | ⟨rfl, hrefused⟩
    · rcases htraced.settled t p o hp' ho with ⟨e', he', hsettles⟩ | ⟨hduplicate, t', ht', p', hp', hid⟩
      · exact .inl ⟨e', by rw [events_snoc]; exact List.mem_append_left _ he', hsettles⟩
      · obtain ⟨q, hq, hrequest⟩ := hearlier hp'
        exact .inr ⟨hduplicate, t', ht', q, hq, by rw [hrequest, hid]⟩
    · obtain rfl := Option.some.inj ho
      exact .inl ⟨e, by simp [events], hsettles⟩
    · rcases hrefused o ho with ⟨hsignal, rfl⟩ | ⟨hduplicate, e', he', hid⟩
      · refine .inl ⟨.abort p.request.signal, ?_, .abort _⟩
        rw [events_snoc]
        exact List.mem_append_left _ (htraced.aborted _ hsignal)
      · obtain ⟨p', hp', -, hrequest⟩ := hs.mem_pending.1 he'
        obtain ⟨q, hq, hrequest'⟩ := hearlier hp'
        refine .inr ⟨hduplicate, e'.ticket, (List.getElem?_eq_some_iff.1 hp').1, q, hq, ?_⟩
        rw [hrequest', hrequest]
        exact hid

theorem CalmRun.traced {h : Hist (Event α β) (Output α)} (hrun : CalmRun resolveResponse {} h s) :
    Inv s ∧ Traced resolveResponse h s := by
  refine Run.hist hrun (fun h s => Inv s ∧ Traced resolveResponse h s) ⟨Inv.start, by simp, by simp⟩ ?_
  rintro h a e os b ⟨ha, htraced⟩ ⟨hstep, hcalm⟩
  have hb : (next resolveResponse a e).1 = b := congrArg Prod.fst hstep
  exact hb ▸ ⟨ha.next hcalm, htraced.next ha hcalm os⟩

/-- What is settled stays silent, and as it was settled. -/
theorem CalmRun.silent {h : Hist (Event α β) (Output α)} (hrun : CalmRun resolveResponse s h s') (hs : Inv s) {t : ℕ}
    {p : Pledge α β ρ} {o : Settlement β ρ} (hp : s.promises[t]? = some p) (ho : p.settlement = some o) :
    s'.promises[t]? = some p ∧ ∀ e, .emit e ∈ emitted h → e.ticket ≠ t := by
  have hall := Run.hist hrun (fun h s => Inv s ∧ s.promises[t]? = some p ∧ ∀ e, .emit e ∈ emitted h → e.ticket ≠ t)
    ⟨hs, hp, by simp⟩ ?_
  · exact hall.2
  rintro h a e os b ⟨ha, hpa, hemitted⟩ ⟨hstep, hcalm⟩
  have hb : (next resolveResponse a e).1 = b := congrArg Prod.fst hstep
  have hos : (next resolveResponse a e).2 = os := congrArg Prod.snd hstep
  refine ⟨hb ▸ ha.next hcalm, hb ▸ next_keeps hpa ho, fun x hx => ?_⟩
  rw [emitted_snoc, List.mem_append] at hx
  rcases hx with hx | hx
  · exact hemitted x hx
  · exact ha.silent hpa ho (hos ▸ hx)

end Steps

/-- What is asked of the state a run has reached. -/
structure Settled {α β ρ : Type} (resolveResponse : Correlated β → Except String ρ) (h : Hist (Event α β) (Output α))
    (s : State α β ρ) : Prop where
  /-- An entry is pending just when its promise is unsettled. -/
  pending_iff : ∀ t, (∃ e ∈ s.pending, e.ticket = t) ↔ ∃ p, s.promises[t]? = some p ∧ p.settlement = none
  /-- A promise is settled by a response with its ids, by its signal or by `cancelAll`; a request
  with the id of an earlier one may have been refused at once. -/
  settled : ∀ (t : ℕ) (p : Pledge α β ρ) (o : Settlement β ρ), s.promises[t]? = some p → p.settlement = some o →
    (∃ e ∈ events h, Settles resolveResponse e p.request o) ∨
      (∃ message, o = .duplicate message) ∧
        ∃ t' < t, ∃ p', s.promises[t']? = some p' ∧ p'.request.payload.toolCallId = p.request.payload.toolCallId
  /-- `replay` emits the unsettled requests in their order. -/
  replayed : replay s none = (unsettled s.promises).map .emit
  /-- What is settled stays so and is not emitted again. -/
  silent : ∀ (h' : Hist (Event α β) (Output α)) (s' : State α β ρ), CalmRun resolveResponse s h' s' →
    ∀ (t : ℕ) (p : Pledge α β ρ) (o : Settlement β ρ), s.promises[t]? = some p → p.settlement = some o →
      s'.promises[t]? = some p ∧ ∀ e, .emit e ∈ emitted h' → e.ticket ≠ t
  /-- Only an unsettled request stands in the way of another with its id. -/
  free : ∀ r : Request α, r.signal ∉ s.aborted →
    (∀ p ∈ s.promises, p.settlement = none → p.request.payload.toolCallId ≠ r.payload.toolCallId) →
      (request s r none).2 = [.emit ⟨s.promises.length, r⟩] ∧
        (request s r none).1.promises = s.promises ++ [⟨r, none⟩]

/-- The unsettled requests are listed each once, by the number of their promise. -/
theorem unsettled_pairwise {α β ρ : Type} (promises : List (Pledge α β ρ)) :
    (unsettled promises).Pairwise fun e e' => e.ticket < e'.ticket := by
  have hfrom : ∀ (l : List (Pledge α β ρ)) (k : ℕ), (unsettledFrom k l).Pairwise fun e e' => e.ticket < e'.ticket := by
    intro l
    induction l with
    | nil => exact fun k => List.Pairwise.nil
    | cons p l ih =>
      intro k
      rw [unsettledFrom, List.pairwise_append]
      refine ⟨by split <;> simp, ih (k + 1), fun e he e' he' => ?_⟩
      obtain ⟨i, -, -, -, -, hticket⟩ := mem_unsettledFrom.1 he'
      split at he
      · obtain rfl := List.mem_singleton.1 he
        dsimp only
        omega
      · simp at he
  exact hfrom promises 0

theorem CalmRun.settled {α β ρ : Type} {resolveResponse : Correlated β → Except String ρ} {h : Hist (Event α β) (Output α)}
    {s : State α β ρ} (hrun : CalmRun resolveResponse {} h s) : Settled resolveResponse h s := by
  obtain ⟨hs, htraced⟩ := hrun.traced
  refine ⟨fun t => ⟨?_, ?_⟩, htraced.settled, ?_, fun h' s' hrun' t p o hp ho => hrun'.silent hs hp ho, fun r hsignal hids => ?_⟩
  · rintro ⟨e, he, rfl⟩
    obtain ⟨p, hp, hnone, -⟩ := hs.mem_pending.1 he
    exact ⟨p, hp, hnone⟩
  · rintro ⟨p, hp, hnone⟩
    exact ⟨⟨t, p.request⟩, hs.mem_pending.2 ⟨p, hp, hnone, rfl⟩, rfl⟩
  · exact congrArg (List.map Output.emit) hs.pending
  · have haccepts : Accepts s r := by
      refine ⟨hsignal, fun e he => ?_⟩
      obtain ⟨p, hp, hnone, hrequest⟩ := hs.mem_pending.1 he
      rw [toolCallId, ← hrequest]
      exact hids p (List.mem_of_getElem? hp) hnone
    rw [request_accepted haccepts]
    exact ⟨rfl, rfl⟩

/-- Where `emit` throws for an accepted request, its entry outlives its promise. -/
theorem not_settled_of_throws {α β ρ : Type} {resolveResponse : Correlated β → Except String ρ} {s : State α β ρ} {r : Request α}
    (haccepts : Accepts s r) (error : String) (h : Hist (Event α β) (Output α)) :
    ¬ Settled resolveResponse h (request s r (some error)).1 := by
  intro hsettled
  rw [request_accepted haccepts] at hsettled
  obtain ⟨p, hp, hnone⟩ := (hsettled.pending_iff s.promises.length).1 ⟨⟨s.promises.length, r⟩, by simp, rfl⟩
  simp only [settle, List.getElem?_modify] at hp
  simp at hp
  rw [← hp] at hnone
  cases hnone

/-- In a run in which no accepted request makes `emit` throw, the map and the promises agree in every
state that is reached; and only in such a run. -/
theorem requests_settle_once {α β ρ : Type} (resolveResponse : Correlated β → Except String ρ)
    (h : Hist (Event α β) (Output α)) (s : State α β ρ) (hrun : Run (step resolveResponse) {} h s) :
    (∀ pre a, pre <+: h → Run (step resolveResponse) {} pre a → Settled resolveResponse pre a) ↔
      CalmRun resolveResponse {} h s := by
  constructor
  · intro hall
    induction hrun with
    | nil => exact .nil
    | @snoc h a e os b hrun hstep ih =>
      refine (ih fun pre a hpre hrun => hall pre a (hpre.trans (List.prefix_append _ _)) hrun).snoc ⟨hstep, ?_⟩
      rintro r error rfl haccepts
      have hb : (request a r (some error)).1 = b := congrArg Prod.fst hstep
      exact not_settled_of_throws haccepts error _ (hb ▸ hall _ b List.prefix_rfl (hrun.snoc hstep))
  · rintro hcalm pre a ⟨post, rfl⟩ hpre
    obtain ⟨b, hb⟩ := Run.of_append hcalm
    have hdet : ∀ (s : State α β ρ) e os t t', step resolveResponse s e os t → step resolveResponse s e os t' → t = t' :=
      fun s e os t t' ht ht' => congrArg Prod.fst (ht.symm.trans ht')
    obtain rfl := Run.unique hdet hpre hb.of_guard
    exact CalmRun.settled hb

/-- A tool call of a turn, with a signal of its own. -/
def ask : Request Unit := ⟨⟨"turn", "call", ()⟩, 0, "cancelled"⟩

/-- Asked, replayed and answered. -/
def answered : Hist (Event Unit Unit) (Output Unit) :=
  [(.request ask none, [.emit ⟨0, ask⟩]), (.replay none, [.emit ⟨0, ask⟩]), (.handle ⟨"turn", "call", ()⟩, [])]

theorem requests_settle_once_demo :
    ∃ s : State Unit Unit Unit, s.promises = [⟨ask, some (.response ⟨"turn", "call", ()⟩ (.ok ()))⟩] ∧
      Settled (fun _ => .ok ()) answered s := by
  have hasked : CalmRun (fun _ => .ok ()) ({} : State Unit Unit Unit) [(.request ask none, [.emit ⟨0, ask⟩])]
      ⟨[⟨0, ask⟩], [⟨0, ask⟩], [⟨ask, none⟩], []⟩ :=
    Run.single ⟨rfl, by simp [Calm]⟩
  have hreplayed : CalmRun (fun _ => .ok ()) ({} : State Unit Unit Unit)
      [(.request ask none, [.emit ⟨0, ask⟩]), (.replay none, [.emit ⟨0, ask⟩])] ⟨[⟨0, ask⟩], [⟨0, ask⟩], [⟨ask, none⟩], []⟩ :=
    Run.snoc hasked ⟨rfl, by simp [Calm]⟩
  have hcalm : CalmRun (fun _ => .ok ()) ({} : State Unit Unit Unit) answered
      ⟨[], [], [⟨ask, some (.response ⟨"turn", "call", ()⟩ (.ok ()))⟩], []⟩ :=
    Run.snoc hreplayed ⟨by simp [step, next, handle, toolCallId, ask, settle], by simp [Calm]⟩
  exact ⟨_, rfl, (requests_settle_once _ _ _ hcalm.of_guard).2 hcalm _ _ List.prefix_rfl hcalm.of_guard⟩

/-- `emit` throws: the promise is rejected, but the request is still pending, is emitted again and
refuses its successor. -/
theorem requests_settle_once_fails :
    let s := (request ({} : State Unit Unit Unit) ask (some "closed")).1
    Run (step fun _ => .ok ()) ({} : State Unit Unit Unit) [(.request ask (some "closed"), [.emit ⟨0, ask⟩])] s ∧
      s.promises = [⟨ask, some (.emitThrew "closed")⟩] ∧ s.pending = [⟨0, ask⟩] ∧ replay s none = [.emit ⟨0, ask⟩] ∧
      (request s ask none).2 = [] :=
  ⟨Run.single rfl, rfl, rfl, rfl, rfl⟩

end Leitwerk.Worker.ReplayingRequests
