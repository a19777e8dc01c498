import Leitwerk.Ipc.ServerSocket
/-!
# Errors, closes and timers of the server's connections

They unbind and close sockets and unregister workers, and do nothing else
(`Calm`), in whatever they are nested.
-/

namespace Leitwerk.Ipc.ServerSocket

open Runs
open JsString (lit)

/-- What the sockets of an entry accepted. -/
def written (e : Nat) (log : List Record) : List JsString :=
  log.filterMap fun
    | .wrote e' _ data => if e' = e then some data else none
    | _ => none

/-- What `send` was called with for an entry. -/
def sentTo (e : Nat) (log : List Record) : List JsString :=
  log.filterMap fun
    | .sent e' data => if e' = e then some data else none
    | _ => none

/-- The entry has overflowed or is unregistered. -/
def Released (e : Nat) (log : List Record) : Prop := .overflow e ∈ log ∨ .unregistered e ∈ log

/-- Records that are not about messages. -/
def Record.notice : Record → Bool
  | .invalidOutput _ => true
  | .runtimeError _ => true
  | .unregistered _ => true
  | .refused _ => true
  | _ => false

theorem written_append (e : Nat) (l l' : List Record) : written e (l ++ l') = written e l ++ written e l' :=
  List.filterMap_append

theorem sentTo_append (e : Nat) (l l' : List Record) : sentTo e (l ++ l') = sentTo e l ++ sentTo e l' :=
  List.filterMap_append

theorem Released.append {e : Nat} {l : List Record} (h : Released e l) (l' : List Record) : Released e (l ++ l') := by
  rcases h with h | h
  · exact .inl (List.mem_append_left _ h)
  · exact .inr (List.mem_append_left _ h)

theorem written_notices (e : Nat) {l : List Record} (h : ∀ r ∈ l, r.notice = true) : written e l = [] := by
  unfold written
  rw [List.filterMap_eq_nil_iff]
  intro r hr
  have := h r hr
  cases r <;> first | rfl | cases this

theorem sentTo_notices (e : Nat) {l : List Record} (h : ∀ r ∈ l, r.notice = true) : sentTo e l = [] := by
  unfold sentTo
  rw [List.filterMap_eq_nil_iff]
  intro r hr
  have := h r hr
  cases r <;> first | rfl | cases this

/-! ## What errors, closes and timers do -/

/-- From `s` to `t` no message is sent, written or delivered; sockets are at most
unbound and closed, and entries keep their messages or are unregistered. -/
structure Calm (s t : State) : Prop where
  log : ∃ l, t.log = s.log ++ l ∧ ∀ r ∈ l, r.notice = true
  key : ∀ e, (t.entries e).key = (s.entries e).key
  entryCount : t.entryCount = s.entryCount
  socketCount : t.socketCount = s.socketCount
  pending : ∀ key e, t.pending key = some e → s.pending key = some e
  dead : ∀ e, .unregistered e ∈ t.log → .unregistered e ∈ s.log ∨ ∃ key, s.pending key = some e ∧ t.pending key = none
  socket : ∀ e, ((t.entries e).socket = (s.entries e).socket ∧
    (t.entries e).socketAuthenticated = (s.entries e).socketAuthenticated) ∨ (t.entries e).socket = none
  outbound : ∀ e, (t.entries e).outbound = (s.entries e).outbound ∨
    (.unregistered e ∈ t.log ∧ (t.entries e).socket = none ∧ (t.entries e).outbound = [])
  isOpen : ∀ k, (t.sockets k).isOpen = true → (s.sockets k).isOpen = true
  owner : ∀ k, (t.sockets k).entry = (s.sockets k).entry

theorem Calm.mem {s t : State} (h : Calm s t) {r : Record} (hr : r ∈ s.log) : r ∈ t.log := by
  obtain ⟨l, hl, -⟩ := h.log
  rw [hl]
  exact List.mem_append_left _ hr

theorem Calm.refl (s : State) : Calm s s where
  log := ⟨[], by simp⟩
  key _ := rfl
  entryCount := rfl
  socketCount := rfl
  pending _ _ h := h
  dead _ h := .inl h
  socket _ := .inl ⟨rfl, rfl⟩
  outbound _ := .inl rfl
  isOpen _ h := h
  owner _ := rfl

theorem Calm.trans {s t u : State} (h : Calm s t) (h' : Calm t u) : Calm s u where
  log := by
    obtain ⟨l, hl, hn⟩ := h.log
    obtain ⟨l', hl', hn'⟩ := h'.log
    refine ⟨l ++ l', by rw [hl', hl, List.append_assoc], ?_⟩
    intro r hr
    rcases List.mem_append.1 hr with hr | hr
    · exact hn r hr
    · exact hn' r hr
  key e := (h'.key e).trans (h.key e)
  entryCount := h'.entryCount.trans h.entryCount
  socketCount := h'.socketCount.trans h.socketCount
  pending key e hp := h.pending key e (h'.pending key e hp)
  dead e hr := by
    rcases h'.dead e hr with hr | ⟨key, hp, hnone⟩
    · apply (h.dead e hr).imp_right
      rintro ⟨key, hp, hnone⟩
      refine ⟨key, hp, ?_⟩
      cases hu : u.pending key with
      | none => rfl
      | some x =>
        rw [h'.pending key x hu] at hnone
        cases hnone
    · exact .inr ⟨key, h.pending key e hp, hnone⟩
  socket e := by
    rcases h'.socket e with ⟨hsocket, hauth⟩ | hnone
    · rcases h.socket e with ⟨hsocket', hauth'⟩ | hnone
      · exact .inl ⟨hsocket.trans hsocket', hauth.trans hauth'⟩
      · exact .inr (hsocket.trans hnone)
    · exact .inr hnone
  outbound e := by
    rcases h'.outbound e with hsame | hgone
    · rcases h.outbound e with hsame' | ⟨hr, hnone, hempty⟩
      · exact .inl (hsame.trans hsame')
      · refine .inr ⟨h'.mem hr, ?_, hsame.trans hempty⟩
        rcases h'.socket e with ⟨hsocket, -⟩ | hnone'
        · exact hsocket.trans hnone
        · exact hnone'
    · exact .inr hgone
  isOpen k hk := h.isOpen k (h'.isOpen k hk)
  owner k := (h'.owner k).trans (h.owner k)

section
variable (s : State) (e k : Nat)

theorem calm_record {r : Record} (h : r.notice = true) (hnot : ∀ e, r ≠ .unregistered e) : Calm s (s.record r) :=
  { Calm.refl s with
    log := ⟨[r], rfl, by simpa using h⟩
    dead := by
      intro e hr
      rw [log_record, List.mem_append, List.mem_singleton] at hr
      exact hr.imp_right fun heq => absurd heq.symm (hnot e)
    outbound := fun _ => .inl rfl }

/-- An entry whose socket and messages stay, or whose socket is unbound. -/
theorem calm_setEntry {f : Entry → Entry} (hkey : ∀ x, (f x).key = x.key) (houtbound : ∀ x, (f x).outbound = x.outbound)
    (hsocket : ∀ x, ((f x).socket = x.socket ∧ (f x).socketAuthenticated = x.socketAuthenticated) ∨ (f x).socket = none) :
    Calm s (s.setEntry e f) := by
  have hat : ∀ e', (s.setEntry e f).entries e' = s.entries e' ∨ (s.setEntry e f).entries e' = f (s.entries e') := by
    intro e'
    by_cases h : e' = e
    · subst h
      exact .inr (entries_setEntry_self ..)
    · exact .inl (entries_setEntry_ne _ _ _ h)
  refine { Calm.refl s with key := ?_, socket := ?_, outbound := ?_ }
  · intro e'
    rcases hat e' with h | h <;> rw [h]
    exact hkey _
  · intro e'
    rcases hat e' with h | h <;> rw [h]
    · exact .inl ⟨rfl, rfl⟩
    · exact hsocket _
  · intro e'
    left
    rcases hat e' with h | h <;> rw [h]
    exact houtbound _

theorem calm_setSocket {socket : Socket} (howner : socket.entry = (s.sockets k).entry)
    (hopen : socket.isOpen = true → (s.sockets k).isOpen = true) : Calm s (s.setSocket k socket) := by
  refine { Calm.refl s with isOpen := ?_, owner := ?_, outbound := fun _ => .inl rfl }
  · intro k' h
    by_cases hk : k' = k
    · subst hk
      rw [sockets_setSocket_self] at h
      exact hopen h
    · rwa [sockets_setSocket_ne _ _ _ hk] at h
  · intro k'
    by_cases hk : k' = k
    · subst hk
      rw [sockets_setSocket_self, howner]
    · rw [sockets_setSocket_ne _ _ _ hk]

theorem calm_clearAuthTimer : Calm s (clearAuthTimer s e) := by
  unfold clearAuthTimer
  split
  · exact Calm.refl s
  · have h := calm_setEntry s e (f := fun x => { x with authTimer := none }) (fun _ => rfl) (fun _ => rfl)
      (fun _ => .inl ⟨rfl, rfl⟩)
    exact ⟨h.log, h.key, h.entryCount, h.socketCount, h.pending, h.dead, h.socket, h.outbound, h.isOpen, h.owner⟩

theorem calm_shut : Calm s (shut s k) := by
  have h : Calm s (s.setSocket k { s.sockets k with isOpen := false }) := calm_setSocket s k rfl (by simp)
  exact ⟨h.log, h.key, h.entryCount, h.socketCount, h.pending, h.dead, h.socket, h.outbound, h.isOpen, h.owner⟩

theorem calm_unbind : Calm s (unbind s e k) := by
  unfold unbind
  split
  · have hunbound := calm_setEntry (clearAuthTimer s e) e (f := ({ · with socket := none, socketAuthenticated := false }))
      (fun _ => rfl) (fun _ => rfl) (fun _ => .inr rfl)
    exact (calm_clearAuthTimer s e).trans hunbound
  · exact Calm.refl s

theorem calm_unregister (key : JsString) : Calm s (unregister s key) := by
  unfold unregister
  split
  · exact Calm.refl s
  · rename_i e hpending
    have hgone : Calm s (({ s with pending := Function.update s.pending key none }.setEntry e
        ({ · with socket := none, socketAuthenticated := false, outbound := [] })).record (.unregistered e)) := by
      constructor
      · exact ⟨[.unregistered e], rfl, by simp [Record.notice]⟩
      · intro e'
        by_cases h : e' = e
        · subst h
          simp
        · rw [entries_record, entries_setEntry_ne _ _ _ h]
      · rfl
      · rfl
      · intro key' e' h
        by_cases hkey : key' = key
        · subst hkey
          simp at h
        · simpa [Function.update_of_ne hkey] using h
      · intro e' hr
        rw [log_record, List.mem_append, List.mem_singleton] at hr
        apply hr.imp_right
        rintro heq
        cases heq
        exact ⟨key, hpending, by simp⟩
      · intro e'
        by_cases h : e' = e
        · subst h
          right
          simp
        · left
          rw [entries_record, entries_setEntry_ne _ _ _ h]
          exact ⟨rfl, rfl⟩
      · intro e'
        by_cases h : e' = e
        · subst h
          right
          simp
        · left
          rw [entries_record, entries_setEntry_ne _ _ _ h]
      · exact fun _ h => h
      · exact fun _ => rfl
    dsimp only
    split
    · exact hgone
    · rename_i k _
      exact hgone.trans (calm_shut _ k)

theorem calm_callback (w : World) {r : Record} (h : r.notice = true) (hnot : ∀ e, r ≠ .unregistered e) :
    Calm s (callback w s r) := by
  unfold callback
  generalize w.stops s.calls = keys
  have hrecord := calm_record s h hnot
  have hstart : Calm s { s.record r with calls := s.calls + 1 } :=
    ⟨hrecord.log, hrecord.key, hrecord.entryCount, hrecord.socketCount, hrecord.pending, hrecord.dead, hrecord.socket,
      hrecord.outbound, hrecord.isOpen, hrecord.owner⟩
  revert hstart
  generalize { s.record r with calls := s.calls + 1 } = t
  intro hstart
  induction keys generalizing t with
  | nil => exact hstart
  | cons key keys ih => exact ih _ (hstart.trans (calm_unregister t key))

theorem calm_reportRuntimeError (w : World) : Calm s (reportRuntimeError w s e) :=
  calm_callback s w (r := .runtimeError e) rfl nofun

theorem calm_afterSend (isOpen : Bool) (h : (s.sockets k).isOpen = true) : Calm s (afterSend s k isOpen) := by
  have hc : Calm s (s.setSocket k { s.sockets k with isOpen }) := calm_setSocket s k rfl fun _ => h
  exact ⟨hc.log, hc.key, hc.entryCount, hc.socketCount, hc.pending, hc.dead, hc.socket, hc.outbound, hc.isOpen, hc.owner⟩

theorem calm_closeSocket (w : World) : Calm s (closeSocket w s e k) := by
  unfold closeSocket
  dsimp only
  split
  · exact (calm_unbind s e k).trans (calm_shut _ k)
  · exact ((calm_unbind s e k).trans (calm_shut _ k)).trans (calm_reportRuntimeError _ e w)

end

end Leitwerk.Ipc.ServerSocket
