import Leitwerk.Ipc.ServerDelivery
/-!
# The connections of the server over a run

The messages of a worker are those of the calls of `send` since it was
registered, which the entries know only by what they recorded.
-/

namespace Leitwerk.Ipc.ServerSocket

open Runs
open JsString (lit)

variable {s t : State} {w : World}

def Event.registers (key : JsString) : Event → Bool
  | .registerWorker instanceId workerId _ => connectionKey instanceId workerId = key
  | _ => false

/-- The message a call sends to a worker. -/
def Event.sends (key : JsString) : Event → Option JsString
  | .send instanceId workerId data => if connectionKey instanceId workerId = key then some data else none
  | _ => none

/-- The messages that `send` was called with since the worker was registered. -/
def messagesOf (key : JsString) : List Event → List JsString
  | [] => []
  | ev :: evs => if ev.registers key then evs.filterMap (Event.sends key) else messagesOf key evs

theorem messagesOf_snoc {key : JsString} {evs : List Event} (h : ∃ ev ∈ evs, ev.registers key = true) (ev : Event) :
    messagesOf key (evs ++ [ev]) = messagesOf key evs ++ (ev.sends key).toList := by
  induction evs with
  | nil => simp at h
  | cons ev' evs ih =>
    rw [List.cons_append]
    unfold messagesOf
    split
    · rw [List.filterMap_append]
      cases hs : ev.sends key <;> simp [hs]
    · rename_i hother
      apply ih
      obtain ⟨ev'', hmem, hreg⟩ := h
      rcases List.mem_cons.1 hmem with rfl | hmem
      · exact absurd hreg hother
      · exact ⟨ev'', hmem, hreg⟩

theorem messagesOf_none {key : JsString} {evs : List Event} (h : ¬ ∃ ev ∈ evs, ev.registers key = true) (ev : Event) :
    messagesOf key (evs ++ [ev]) = [] := by
  induction evs with
  | nil => simp [messagesOf]
  | cons ev' evs ih =>
    rw [List.cons_append]
    unfold messagesOf
    rw [if_neg fun hreg => h ⟨ev', List.mem_cons_self, hreg⟩]
    exact ih fun ⟨ev'', hmem, hreg⟩ => h ⟨ev'', List.mem_cons_of_mem _ hmem, hreg⟩

/-! ## Steps that send nothing -/

/-- From `s` to `t` nothing is sent, and no worker is registered. -/
structure Quiet (s t : State) : Prop where
  sent : ∀ e, sentTo e t.log = sentTo e s.log
  pending : ∀ key e, t.pending key = some e → s.pending key = some e
  entryCount : t.entryCount = s.entryCount
  key : ∀ e, (t.entries e).key = (s.entries e).key

theorem Quiet.refl (s : State) : Quiet s s := ⟨fun _ => rfl, fun _ _ h => h, rfl, fun _ => rfl⟩

theorem Quiet.trans {u : State} (h : Quiet s t) (h' : Quiet t u) : Quiet s u :=
  ⟨fun e => (h'.sent e).trans (h.sent e), fun key e hp => h.pending key e (h'.pending key e hp),
    h'.entryCount.trans h.entryCount, fun e => (h'.key e).trans (h.key e)⟩

theorem Calm.quiet (h : Calm s t) : Quiet s t := by
  obtain ⟨l, hl, hnotice⟩ := h.log
  refine ⟨?_, h.pending, h.entryCount, h.key⟩
  intro e
  rw [hl, sentTo_append, sentTo_notices e hnotice, List.append_nil]

theorem quiet_record (s : State) {r : Record} (h : ∀ e, sentTo e [r] = []) : Quiet s (s.record r) := by
  refine ⟨?_, fun _ _ h => h, rfl, fun _ => rfl⟩
  intro e
  rw [log_record, sentTo_append, h, List.append_nil]

theorem quiet_setEntry (s : State) (e : Nat) {f : Entry → Entry} (h : ∀ x, (f x).key = x.key) : Quiet s (s.setEntry e f) := by
  refine ⟨fun _ => rfl, fun _ _ h => h, rfl, ?_⟩
  intro e'
  by_cases heq : e' = e
  · subst heq
    rw [entries_setEntry_self, h]
  · rw [entries_setEntry_ne _ _ _ heq]

theorem quiet_sendNow {e k : Nat} {data : JsString} {ok : Bool} (h : sendNow w s e k data = (t, ok)) : Quiet s t := by
  rcases sendNow_cases h with ⟨-, hopen, isOpen, rfl⟩ | ⟨-, hc, -⟩
  · exact (calm_afterSend s k isOpen hopen).quiet.trans (quiet_record _ fun _ => rfl)
  · exact hc.quiet

theorem quiet_queueOutbound (w : World) (s : State) (e : Nat) (data : JsString) : Quiet s (queueOutbound w s e data) := by
  unfold queueOutbound
  split
  · have hover : Quiet s ((s.setEntry e ({ · with outbound := [] })).record (.overflow e)) :=
      (quiet_setEntry s e (f := ({ · with outbound := [] })) fun _ => rfl).trans (quiet_record _ fun _ => rfl)
    have hreport := hover.trans (calm_reportRuntimeError _ e w).quiet
    dsimp only
    split
    · exact hreport
    · rename_i k _
      exact hreport.trans (calm_closeSocket _ e k w).quiet
  · exact quiet_setEntry s e fun _ => rfl

theorem quiet_flushOutbound (w : World) (e k rounds : Nat) (s : State) : Quiet s (flushOutbound w e k rounds s) := by
  induction rounds generalizing s with
  | zero => exact Quiet.refl s
  | succ rounds ih =>
    unfold flushOutbound
    split
    · exact Quiet.refl s
    · split
      · rename_i t heq
        exact quiet_sendNow heq
      · rename_i t heq
        have hshift : Quiet t (t.setEntry e fun entry => { entry with outbound := entry.outbound.tail }) :=
          quiet_setEntry t e fun _ => rfl
        exact ((quiet_sendNow heq).trans hshift).trans (ih _)

/-- A call of `send` records the message and sends nothing else. -/
theorem quiet_send (w : World) {key : JsString} {e : Nat} (hp : s.pending key = some e) (data : JsString) :
    Quiet (s.record (.sent e data)) (send w s key data) := by
  unfold send
  rw [hp]
  dsimp only
  split
  · exact quiet_queueOutbound w _ e data
  · rename_i k _
    split
    · exact quiet_queueOutbound w _ e data
    · split
      · rename_i t heq
        exact quiet_sendNow heq
      · rename_i t heq
        have hclosed : Quiet t (if (t.entries e).socket = some k then closeSocket w t e k else t) := by
          split
          · exact (calm_closeSocket t e k w).quiet
          · exact Quiet.refl t
        exact ((quiet_sendNow heq).trans hclosed).trans (quiet_queueOutbound w _ e data)

theorem quiet_bindSocket (w : World) (s : State) (key : JsString) (isOpen : Bool) : Quiet s (bindSocket w s key isOpen) := by
  have hattach : ∀ (e : Nat) (t : State), Quiet t (attach t e isOpen) := by
    intro e t
    have hset := quiet_setEntry t e (f := ({ · with
      socket := some t.socketCount, socketAuthenticated := false, authTimer := some t.socketCount })) fun _ => rfl
    exact ⟨hset.sent, hset.pending, hset.entryCount, hset.key⟩
  unfold bindSocket
  split
  · exact quiet_record s fun _ => rfl
  · rename_i e _
    split
    · exact hattach e s
    · rename_i old _
      split
      · exact quiet_record s fun _ => rfl
      · exact (calm_closeSocket s e old w).quiet.trans (hattach e _)

/-- Apart from `registerWorker` and `send`. -/
def Event.other : Event → Bool
  | .registerWorker _ _ _ => false
  | .send _ _ _ => false
  | _ => true

theorem quiet_next (w : World) (s : State) {ev : Event} (h : ev.other = true) : Quiet s (next w s ev) := by
  cases ev with
  | registerWorker => cases h
  | send => cases h
  | setUnknownWorkerConnectionsRetryable enabled => exact ⟨fun _ => rfl, fun _ _ h => h, rfl, fun _ => rfl⟩
  | bindSocket instanceId workerId isOpen => exact quiet_bindSocket w s _ isOpen
  | unregister instanceId workerId => exact (calm_unregister s _).quiet
  | message k text =>
    unfold next onMessage
    dsimp only
    split
    · exact Quiet.refl s
    · split
      · unfold deliverIpcText
        split
        · exact ((calm_callback s w (r := .invalidOutput _) rfl nofun).trans (calm_closeSocket _ _ k w)).quiet
        · exact quiet_record s (r := .delivered _ k text) fun _ => rfl
      · split
        · exact (calm_closeSocket s _ k w).quiet
        · have hauth : Quiet s (((clearAuthTimer s (s.sockets k).entry).setEntry (s.sockets k).entry
              ({ · with socketAuthenticated := true })).record (.authenticated (s.sockets k).entry k)) :=
            ((calm_clearAuthTimer s _).quiet.trans
              (quiet_setEntry _ _ (f := ({ · with socketAuthenticated := true })) fun _ => rfl)).trans
                (quiet_record _ fun _ => rfl)
          exact hauth.trans (quiet_flushOutbound w _ k _ _)
  | deliveryFailed k => exact ((calm_reportRuntimeError s _ w).trans (calm_closeSocket _ _ k w)).quiet
  | error k =>
    unfold next onError
    dsimp only
    split
    · exact (calm_reportRuntimeError s _ w).quiet
    · exact Quiet.refl s
  | notOpen k =>
    have hclosed : Calm s (s.setSocket k { s.sockets k with isOpen := false }) := calm_setSocket s k rfl (by simp)
    exact hclosed.quiet
  | close k =>
    have hclosed : Calm s (s.setSocket k { s.sockets k with isOpen := false }) := calm_setSocket s k rfl (by simp)
    exact (hclosed.trans (calm_unbind _ _ k)).quiet
  | authTimeout e k =>
    unfold next onAuthTimeout
    dsimp only
    split
    · have htimer : Quiet s { s with timers := s.timers.erase (e, k) } := ⟨fun _ => rfl, fun _ _ h => h, rfl, fun _ => rfl⟩
      exact htimer.trans (calm_closeSocket _ e k w).quiet
    · exact ⟨fun _ => rfl, fun _ _ h => h, rfl, fun _ => rfl⟩

/-! ## Runs -/

/-- What a run knows of the workers it registered. -/
structure Named (h : Hist Event Unit) (s : State) : Prop where
  sent : ∀ key e, s.pending key = some e → sentTo e s.log = messagesOf key (events h) ∧
    ∃ ev ∈ events h, ev.registers key = true
  fresh : ∀ e, s.entryCount ≤ e → sentTo e s.log = []
  registered : ∀ key, (∃ ev ∈ events h, ev.registers key = true) → ∃ e < s.entryCount, (s.entries e).key = key

theorem Named.quiet {h : Hist Event Unit} (hn : Named h s) (hq : Quiet s t) {ev : Event}
    (hev : ∀ key, ev.registers key = false ∧ ev.sends key = none) : Named (h ++ [(ev, [])]) t := by
  constructor
  · intro key e hp
    obtain ⟨hsent, ev', hmem, hreg⟩ := hn.sent key e (hq.pending key e hp)
    have hregistered : ∃ ev ∈ events h, ev.registers key = true := ⟨ev', hmem, hreg⟩
    rw [events_snoc, messagesOf_snoc hregistered, hq.sent, hsent, (hev key).2]
    exact ⟨by simp, ev', List.mem_append_left _ hmem, hreg⟩
  · intro e he
    rw [hq.entryCount] at he
    rw [hq.sent, hn.fresh e he]
  · rintro key ⟨ev', hmem, hreg⟩
    rw [events_snoc] at hmem
    rcases List.mem_append.1 hmem with hmem | hmem
    · obtain ⟨e, he, hkey⟩ := hn.registered key ⟨ev', hmem, hreg⟩
      exact ⟨e, by rw [hq.entryCount]; exact he, by rw [hq.key]; exact hkey⟩
    · rw [List.mem_singleton.1 hmem, (hev key).1] at hreg
      cases hreg

theorem named_register {h : Hist Event Unit} (hn : Named h s) {instanceId workerId tokenHash : JsString}
    (hnew : ∀ e < s.entryCount, (s.entries e).key ≠ connectionKey instanceId workerId) :
    Named (h ++ [(.registerWorker instanceId workerId tokenHash, [])])
      (registerWorker s (connectionKey instanceId workerId) tokenHash) := by
  obtain ⟨key, hkey⟩ : ∃ key, connectionKey instanceId workerId = key := ⟨_, rfl⟩
  rw [hkey] at hnew ⊢
  have hregisters : ∀ key', (Event.registerWorker instanceId workerId tokenHash).registers key' = decide (key = key') := by
    intro key'
    simp [Event.registers, hkey]
  have hself : (registerWorker s key tokenHash).entries s.entryCount = { key, tokenHash } := Function.update_self ..
  have hat : ∀ e ≠ s.entryCount, (registerWorker s key tokenHash).entries e = s.entries e :=
    fun e hne => Function.update_of_ne hne ..
  have hcount : (registerWorker s key tokenHash).entryCount = s.entryCount + 1 := rfl
  have hlog : (registerWorker s key tokenHash).log = s.log := rfl
  constructor
  · intro key' e hp
    rw [hlog, events_snoc]
    by_cases heq : key' = key
    · subst heq
      have he : (registerWorker s key' tokenHash).pending key' = some s.entryCount := Function.update_self ..
      rw [he] at hp
      cases hp
      have hfirst : ¬ ∃ ev ∈ events h, ev.registers key' = true := by
        intro hreg
        obtain ⟨e, he, hname⟩ := hn.registered key' hreg
        exact hnew e he hname
      rw [hn.fresh _ (le_refl _), messagesOf_none hfirst]
      exact ⟨rfl, _, List.mem_append_right _ List.mem_cons_self, by simp [hregisters]⟩
    · have hother : (registerWorker s key tokenHash).pending key' = s.pending key' := Function.update_of_ne heq ..
      rw [hother] at hp
      obtain ⟨hsent, ev, hmem, hreg⟩ := hn.sent key' e hp
      rw [messagesOf_snoc ⟨ev, hmem, hreg⟩, hsent]
      exact ⟨by simp [Event.sends], ev, List.mem_append_left _ hmem, hreg⟩
  · intro e he
    rw [hcount] at he
    rw [hlog]
    exact hn.fresh e (by omega)
  · rintro key' ⟨ev, hmem, hreg⟩
    rw [events_snoc] at hmem
    rw [hcount]
    rcases List.mem_append.1 hmem with hmem | hmem
    · obtain ⟨e, he, hname⟩ := hn.registered key' ⟨ev, hmem, hreg⟩
      exact ⟨e, by omega, by rw [hat e (by omega)]; exact hname⟩
    · rw [List.mem_singleton.1 hmem, hregisters, decide_eq_true_eq] at hreg
      exact ⟨s.entryCount, by omega, by rw [hself]; exact hreg⟩

theorem named_send {h : Hist Event Unit} (hn : Named h s) (hs : Settled s) (instanceId workerId data : JsString) :
    Named (h ++ [(.send instanceId workerId data, [])]) (send w s (connectionKey instanceId workerId) data) := by
  obtain ⟨key, hkey⟩ : ∃ key, connectionKey instanceId workerId = key := ⟨_, rfl⟩
  rw [hkey]
  have hsends : ∀ key', (Event.send instanceId workerId data).sends key' = if key = key' then some data else none := by
    intro key'
    simp [Event.sends, hkey]
  have hregistered : ∀ key', (∃ ev ∈ events (h ++ [(Event.send instanceId workerId data, ([] : List Unit))]),
      ev.registers key' = true) → ∃ ev ∈ events h, ev.registers key' = true := by
    rintro key' ⟨ev, hmem, hreg⟩
    rw [events_snoc] at hmem
    rcases List.mem_append.1 hmem with hmem | hmem
    · exact ⟨ev, hmem, hreg⟩
    · rw [List.mem_singleton.1 hmem] at hreg
      cases hreg
  -- what is sent to the entry that the step finds, if it finds one
  have hstep : ∃ l : Nat → List JsString, (∀ e, sentTo e (send w s key data).log = sentTo e s.log ++ l e) ∧
      (∀ key' e, s.pending key' = some e → l e = if key = key' then [data] else []) ∧ (∀ e, s.entryCount ≤ e → l e = []) ∧
      (∀ key' e, (send w s key data).pending key' = some e → s.pending key' = some e) ∧
      (send w s key data).entryCount = s.entryCount ∧
      ∀ e, ((send w s key data).entries e).key = (s.entries e).key := by
    cases hp : s.pending key with
    | none =>
      have hnone : send w s key data = s := by
        unfold send
        rw [hp]
      rw [hnone]
      refine ⟨fun _ => [], fun _ => by simp, ?_, fun _ _ => rfl, fun _ _ h => h, rfl, fun _ => rfl⟩
      intro key' e hp'
      rw [if_neg]
      rintro rfl
      rw [hp] at hp'
      cases hp'
    | some e₀ =>
      have hq := quiet_send w hp data
      have hlt := pending_lt hs hp
      refine ⟨only e₀ data, ?_, ?_, ?_, hq.pending, hq.entryCount, hq.key⟩
      · intro e
        rw [hq.sent, log_record, sentTo_append, sentTo_sent]
      · intro key' e hp'
        split
        · rename_i heq
          subst heq
          rw [hp] at hp'
          cases hp'
          exact only_self e₀ data
        · rename_i hne
          apply only_ne
          rintro rfl
          exact hne ((hs.pending key e hp).2.symm.trans (hs.pending key' e hp').2)
      · intro e he
        apply only_ne
        omega
  obtain ⟨l, hlog, hpending, hfresh, hsub, hcount, hkeys⟩ := hstep
  constructor
  · intro key' e hp
    have hp' := hsub key' e hp
    obtain ⟨hsent, ev, hmem, hreg⟩ := hn.sent key' e hp'
    rw [hlog, hsent, hpending key' e hp', events_snoc, messagesOf_snoc ⟨ev, hmem, hreg⟩, hsends]
    refine ⟨?_, ev, List.mem_append_left _ hmem, hreg⟩
    split <;> rfl
  · intro e he
    rw [hcount] at he
    rw [hlog, hn.fresh e he, hfresh e he]
    rfl
  · intro key' hreg
    obtain ⟨e, he, hname⟩ := hn.registered key' (hregistered key' hreg)
    exact ⟨e, by rw [hcount]; exact he, by rw [hkeys]; exact hname⟩

theorem named_next {h : Hist Event Unit} (hn : Named h s) (hs : Settled s) {ev : Event} (honce : registersOnce s ev = true) :
    Named (h ++ [(ev, [])]) (next w s ev) := by
  cases ev with
  | registerWorker instanceId workerId tokenHash =>
    have hnew : ∀ e < s.entryCount, (s.entries e).key ≠ connectionKey instanceId workerId := by
      simpa [registersOnce] using honce
    exact named_register hn hnew
  | send instanceId workerId data => exact named_send hn hs instanceId workerId data
  | setUnknownWorkerConnectionsRetryable => exact hn.quiet (quiet_next w s rfl) fun _ => ⟨rfl, rfl⟩
  | bindSocket => exact hn.quiet (quiet_next w s rfl) fun _ => ⟨rfl, rfl⟩
  | unregister => exact hn.quiet (quiet_next w s rfl) fun _ => ⟨rfl, rfl⟩
  | message => exact hn.quiet (quiet_next w s rfl) fun _ => ⟨rfl, rfl⟩
  | deliveryFailed => exact hn.quiet (quiet_next w s rfl) fun _ => ⟨rfl, rfl⟩
  | error => exact hn.quiet (quiet_next w s rfl) fun _ => ⟨rfl, rfl⟩
  | notOpen => exact hn.quiet (quiet_next w s rfl) fun _ => ⟨rfl, rfl⟩
  | close => exact hn.quiet (quiet_next w s rfl) fun _ => ⟨rfl, rfl⟩
  | authTimeout => exact hn.quiet (quiet_next w s rfl) fun _ => ⟨rfl, rfl⟩

theorem run_invariants {h : Hist Event Unit} (hr : Run (machine w) {} h s) : Settled s ∧ Named h s := by
  apply hr.hist fun h s => Settled s ∧ Named h s
  · constructor
    · refine ⟨fun _ _ => ⟨rfl, rfl⟩, nofun, nofun, nofun, nofun, nofun, nofun, ?_, nofun, fun _ => .inr rfl⟩
      intro pre r post e k heq
      cases pre <;> cases heq
    · exact ⟨nofun, fun _ _ => rfl, fun _ ⟨_, hmem, _⟩ => by cases hmem⟩
  · rintro h s ev os t ⟨hs, hn⟩ ⟨⟨rfl, rfl⟩, hok⟩
    rw [Bool.and_eq_true] at hok
    exact ⟨settled_next hs w hok.2, named_next hn hs hok.2⟩

/-- The socket is the one of its entry. -/
def Bound (s : State) (k : Nat) : Prop := (s.entries (s.sockets k).entry).socket = some k

/-- The worker of a socket. -/
def workerOf (s : State) (k : Nat) : JsString := (s.entries (s.sockets k).entry).key

/-- The entry and the socket of an event. -/
def Event.origin (s : State) : Event → Option (Nat × Nat)
  | .message k _ => some ((s.sockets k).entry, k)
  | .error k => some ((s.sockets k).entry, k)
  | .close k => some ((s.sockets k).entry, k)
  | .authTimeout e k => some (e, k)
  | _ => none

/-- An event of a socket that is not bound changes no entry, and nothing is sent or read. -/
theorem replaced_socket (w : World) {ev : Event} {e k : Nat} (horigin : ev.origin s = some (e, k))
    (hreplaced : (s.entries e).socket ≠ some k) :
    (next w s ev).pending = s.pending ∧ (next w s ev).entries = s.entries ∧ (next w s ev).log = s.log := by
  cases ev with
  | message k' text =>
    cases horigin
    unfold next onMessage
    dsimp only
    rw [if_pos hreplaced]
    exact ⟨rfl, rfl, rfl⟩
  | error k' =>
    cases horigin
    unfold next onError
    dsimp only
    rw [if_neg fun h => hreplaced h.1]
    exact ⟨rfl, rfl, rfl⟩
  | close k' =>
    cases horigin
    unfold next onClose unbind
    dsimp only
    rw [sockets_setSocket_self, if_neg]
    · exact ⟨rfl, rfl, rfl⟩
    · exact hreplaced
  | authTimeout e' k' =>
    cases horigin
    unfold next onAuthTimeout
    dsimp only
    rw [if_neg fun h => hreplaced h.1]
    exact ⟨rfl, rfl, rfl⟩
  | registerWorker => cases horigin
  | send => cases horigin
  | setUnknownWorkerConnectionsRetryable => cases horigin
  | bindSocket => cases horigin
  | unregister => cases horigin
  | deliveryFailed => cases horigin
  | notOpen => cases horigin

/-- After every run: what a registered worker's sockets accepted, and then what
waits, is what was sent to it, until it overflows; nothing is written to or read
from a socket before it has authenticated; of the sockets of a worker one at most
is bound, and the events of the others change nothing; and where something waits,
no socket that has authenticated and is open is bound. -/
theorem delivered_in_order {h : Hist Event Unit} (hr : Run (machine w) {} h s) :
    (∀ key e, s.pending key = some e → .overflow e ∉ s.log →
        written e s.log ++ (s.entries e).outbound = messagesOf key (events h)) ∧
      AuthFirst s.log ∧
      (∀ k₁ k₂, Bound s k₁ → Bound s k₂ → workerOf s k₁ = workerOf s k₂ → k₁ = k₂) ∧
      (∀ ev e k, ev.origin s = some (e, k) → (s.entries e).socket ≠ some k →
        (next w s ev).pending = s.pending ∧ (next w s ev).entries = s.entries ∧ (next w s ev).log = s.log) ∧
      ∀ e k, (s.entries e).outbound ≠ [] → (s.entries e).socket = some k → (s.entries e).socketAuthenticated = true →
        (s.sockets k).isOpen = false := by
  obtain ⟨hs, hn⟩ := run_invariants hr
  refine ⟨?_, hs.first, ?_, fun ev e k => replaced_socket w, ?_⟩
  · intro key e hp hover
    rcases hs.balance e with (hr | hr) | hb
    · exact absurd hr hover
    · exact absurd hr (hs.live key e hp)
    · rw [← (hn.sent key e hp).1, ← hb, List.append_nil]
  · intro k₁ k₂ h₁ h₂ hworker
    have hentry := hs.keys _ (bound_lt hs h₁) _ (bound_lt hs h₂) hworker
    unfold Bound at h₁ h₂
    rw [hentry, h₂] at h₁
    exact (Option.some.inj h₁).symm
  · intro e k houtbound hk ha
    cases ho : (s.sockets k).isOpen with
    | false => rfl
    | true => exact absurd (hs.idle e k id hk ha ho) houtbound

/-- A world in which one call of a socket throws, and the token is `t`. -/
def failsAt (n : Nat) : World where
  returns k := k ≠ n
  staysOpen _ := true
  stops _ := []
  verifyWorkerConnectToken text _ := text = lit "t"
  deserializes _ := true
  maxBufferedMessages := 1000

/-- The second message fails on the first socket and arrives through the second. -/
def resent : List Event :=
  [.registerWorker (lit "i") (lit "w") (lit "h"), .send (lit "i") (lit "w") (lit "a"), .bindSocket (lit "i") (lit "w") true,
    .message 0 (lit "t"), .send (lit "i") (lit "w") (lit "b"), .message 0 (lit "late"), .bindSocket (lit "i") (lit "w") true,
    .message 1 (lit "t")]

theorem delivered_in_order_at :
    let s := resent.foldl (next (failsAt 1)) {}
    s.log.filter (fun r => r.through.isSome) = [.wrote 0 0 (lit "a"), .wrote 0 1 (lit "b")] ∧
      written 0 s.log ++ (s.entries 0).outbound = [lit "a", lit "b"] := by
  intro s
  have hr : Run (machine (failsAt 1)) {} (play (next (failsAt 1)) (fun _ _ => []) {} resent) s :=
    run_guarded (next (failsAt 1)) (fun _ _ => []) (fun _ _ => ⟨rfl, rfl⟩) (by decide)
  have horder := (delivered_in_order hr).1 (connectionKey (lit "i") (lit "w")) 0 (by decide) (by decide)
  exact ⟨by decide, horder.trans (by decide)⟩

end Leitwerk.Ipc.ServerSocket
