import Leitwerk.Ipc.ServerCalm
/-!
# What each call of the server's connections keeps

What the sockets of an entry accepted, and then what waits in it, is what was
sent to it, until it overflows or is unregistered; and nothing waits while an
open socket has authenticated.
-/

namespace Leitwerk.Ipc.ServerSocket

open Runs
open JsString (lit)

/-! ## The invariant -/

/-- The entry and the socket whose authentication a record takes for granted. -/
def Record.through : Record → Option (Nat × Nat)
  | .wrote e k _ => some (e, k)
  | .delivered e k _ => some (e, k)
  | _ => none

/-- Nothing is written to or read from a socket before it has authenticated. -/
def AuthFirst (log : List Record) : Prop :=
  ∀ pre r post e k, log = pre ++ r :: post → r.through = some (e, k) → .authenticated e k ∈ pre

theorem AuthFirst.snoc {log : List Record} (h : AuthFirst log) {r : Record}
    (hr : ∀ e k, r.through = some (e, k) → .authenticated e k ∈ log) : AuthFirst (log ++ [r]) := by
  intro pre r' post e k heq hthrough
  rcases post.eq_nil_or_concat with rfl | ⟨post, last, rfl⟩
  · obtain ⟨rfl, hlast⟩ := List.append_inj' heq rfl
    cases hlast
    exact hr e k hthrough
  · rw [List.concat_eq_append, ← List.cons_append, ← List.append_assoc] at heq
    obtain ⟨hlog, -⟩ := List.append_inj' heq rfl
    exact h pre r' post e k hlog hthrough

theorem AuthFirst.notices {log l : List Record} (h : AuthFirst log) (hl : ∀ r ∈ l, r.notice = true) : AuthFirst (log ++ l) := by
  induction l using List.reverseRecOn with
  | nil => simpa using h
  | append_singleton l r ih =>
    rw [← List.append_assoc]
    apply (ih fun r' hr' => hl r' (List.mem_append_left _ hr')).snoc
    intro e k hthrough
    have hnotice := hl r (by simp)
    cases r <;> simp_all [Record.notice, Record.through]

/-- What holds between the calls of the manager, where `waiting` is what a call is
about to write or queue, and `busy` are the entries whose messages it flushes. -/
structure Inv (waiting : Nat → List JsString) (busy : Nat → Prop) (s : State) : Prop where
  fresh : ∀ e, s.entryCount ≤ e → (s.entries e).socket = none ∧ (s.entries e).outbound = []
  pending : ∀ key e, s.pending key = some e → e < s.entryCount ∧ (s.entries e).key = key
  live : ∀ key e, s.pending key = some e → .unregistered e ∉ s.log
  past : ∀ e, .unregistered e ∈ s.log → e < s.entryCount
  keys : ∀ e < s.entryCount, ∀ e' < s.entryCount, (s.entries e).key = (s.entries e').key → e = e'
  bound : ∀ e k, (s.entries e).socket = some k → k < s.socketCount ∧ (s.sockets k).entry = e
  auth : ∀ e k, (s.entries e).socket = some k → (s.entries e).socketAuthenticated = true → .authenticated e k ∈ s.log
  first : AuthFirst s.log
  idle : ∀ e k, ¬ busy e → (s.entries e).socket = some k → (s.entries e).socketAuthenticated = true →
    (s.sockets k).isOpen = true → (s.entries e).outbound = []
  balance : ∀ e, Released e s.log ∨ written e s.log ++ (s.entries e).outbound ++ waiting e = sentTo e s.log

/-- Nothing waits, and no entry is flushed. -/
abbrev Settled (s : State) : Prop := Inv (fun _ => []) (fun _ => False) s

/-- One message of one entry. -/
def only (e : Nat) (data : JsString) : Nat → List JsString := Function.update (fun _ => []) e [data]

variable {waiting : Nat → List JsString} {busy : Nat → Prop} {s t : State} {w : World}

/-- Errors, closes and timers keep the invariant, in whatever they are nested. -/
theorem Inv.calm (h : Inv waiting busy s) (hc : Calm s t) : Inv waiting busy t := by
  obtain ⟨l, hl, hnotice⟩ := hc.log
  have hbound : ∀ e k, (t.entries e).socket = some k → (s.entries e).socket = some k ∧
      (t.entries e).socketAuthenticated = (s.entries e).socketAuthenticated := by
    intro e k hk
    rcases hc.socket e with ⟨hsocket, hauth⟩ | hnone
    · exact ⟨hsocket ▸ hk, hauth⟩
    · rw [hnone] at hk
      cases hk
  constructor
  · intro e he
    rw [hc.entryCount] at he
    obtain ⟨hsocket, houtbound⟩ := h.fresh e he
    constructor
    · rcases hc.socket e with ⟨hsame, -⟩ | hnone
      · rw [hsame, hsocket]
      · exact hnone
    · rcases hc.outbound e with hsame | ⟨-, -, hempty⟩
      · rw [hsame, houtbound]
      · exact hempty
  · intro key e hp
    rw [hc.entryCount, hc.key]
    exact h.pending key e (hc.pending key e hp)
  · intro key e hp hr
    have hps := hc.pending key e hp
    rcases hc.dead e hr with hr | ⟨key', hp', hnone⟩
    · exact h.live key e hps hr
    · have hkey : key' = key := (h.pending key' e hp').2.symm.trans (h.pending key e hps).2
      rw [hkey, hp] at hnone
      cases hnone
  · intro e hr
    rw [hc.entryCount]
    rcases hc.dead e hr with hr | ⟨key, hp, -⟩
    · exact h.past e hr
    · exact (h.pending key e hp).1
  · intro e he e' he'
    rw [hc.entryCount] at he he'
    rw [hc.key, hc.key]
    exact h.keys e he e' he'
  · intro e k hk
    rw [hc.socketCount, hc.owner]
    exact h.bound e k (hbound e k hk).1
  · intro e k hk ha
    obtain ⟨hsocket, hauth⟩ := hbound e k hk
    exact hc.mem (h.auth e k hsocket (hauth ▸ ha))
  · rw [hl]
    exact h.first.notices hnotice
  · intro e k hb hk ha ho
    obtain ⟨hsocket, hauth⟩ := hbound e k hk
    have hempty := h.idle e k hb hsocket (hauth ▸ ha) (hc.isOpen k ho)
    rcases hc.outbound e with hsame | ⟨-, -, hgone⟩
    · rw [hsame, hempty]
    · exact hgone
  · intro e
    rcases h.balance e with hr | hb
    · left
      rw [hl]
      exact hr.append l
    · rcases hc.outbound e with hsame | ⟨hr, -⟩
      · right
        rw [hl, written_append, sentTo_append, written_notices e hnotice, sentTo_notices e hnotice, hsame, List.append_nil,
          List.append_nil]
        exact hb
      · exact .inl (.inr hr)

/-! ## Writing and queueing -/

theorem written_wrote (e e' k : Nat) (data : JsString) :
    written e' [.wrote e k data] = if e = e' then [data] else [] := by
  unfold written
  by_cases h : e = e'
  · simp [h]
  · simp [h]

theorem sentTo_sent (e e' : Nat) (data : JsString) : sentTo e' [.sent e data] = only e data e' := by
  unfold sentTo only
  by_cases h : e = e'
  · subst h
    simp
  · rw [Function.update_of_ne (Ne.symm h)]
    simp [h]

/-- An entry changes and records are added: what there is to show of the entry. -/
theorem Inv.update {e : Nat} (h : Inv waiting busy s) (he : e < s.entryCount) {f : Entry → Entry} {l : List Record}
    {waiting' : Nat → List JsString} {busy' : Nat → Prop}
    (hkey : (f (s.entries e)).key = (s.entries e).key) (hsocket : (f (s.entries e)).socket = (s.entries e).socket)
    (hauth : ∀ k, (s.entries e).socket = some k → (f (s.entries e)).socketAuthenticated = true →
      (s.entries e).socketAuthenticated = true ∨ .authenticated e k ∈ l)
    (hfirst : AuthFirst (s.log ++ l))
    (hidle : ∀ k, ¬ busy' e → (s.entries e).socket = some k → (f (s.entries e)).socketAuthenticated = true →
      (s.sockets k).isOpen = true → (f (s.entries e)).outbound = [])
    (hbalance : Released e (s.log ++ l) ∨ written e l ++ (f (s.entries e)).outbound ++ waiting' e =
      (s.entries e).outbound ++ waiting e ++ sentTo e l)
    (hother : ∀ e' ≠ e, (busy e' → busy' e') ∧ written e' l = [] ∧ sentTo e' l = [] ∧ waiting' e' = waiting e')
    (hnot : ∀ e', .unregistered e' ∉ l) : Inv waiting' busy' { s.setEntry e f with log := s.log ++ l } := by
  have hat : ∀ e' ≠ e, (s.setEntry e f).entries e' = s.entries e' := fun e' hne => entries_setEntry_ne _ _ _ hne
  have hself : (s.setEntry e f).entries e = f (s.entries e) := entries_setEntry_self ..
  have hkeys : ∀ e', ((s.setEntry e f).entries e').key = (s.entries e').key := by
    intro e'
    by_cases heq : e' = e
    · subst heq
      rw [hself, hkey]
    · rw [hat e' heq]
  have hsockets : ∀ e', ((s.setEntry e f).entries e').socket = (s.entries e').socket := by
    intro e'
    by_cases heq : e' = e
    · subst heq
      rw [hself, hsocket]
    · rw [hat e' heq]
  constructor <;> dsimp only [entryCount_setEntry, pending_setEntry, sockets_setEntry, socketCount_setEntry]
  · intro e' he'
    have hne : e' ≠ e := by omega
    rw [hat e' hne]
    exact h.fresh e' he'
  · intro key e' hp
    rw [hkeys]
    exact h.pending key e' hp
  · intro key e' hp hr
    rcases List.mem_append.1 hr with hr | hr
    · exact h.live key e' hp hr
    · exact hnot e' hr
  · intro e' hr
    rcases List.mem_append.1 hr with hr | hr
    · exact h.past e' hr
    · exact absurd hr (hnot e')
  · intro e₁ he₁ e₂ he₂
    rw [hkeys, hkeys]
    exact h.keys e₁ he₁ e₂ he₂
  · intro e' k hk
    rw [hsockets] at hk
    exact h.bound e' k hk
  · intro e' k hk ha
    rw [hsockets] at hk
    by_cases heq : e' = e
    · subst heq
      rw [hself] at ha
      rcases hauth k hk ha with ha | hmem
      · exact List.mem_append_left _ (h.auth e' k hk ha)
      · exact List.mem_append_right _ hmem
    · rw [hat e' heq] at ha
      exact List.mem_append_left _ (h.auth e' k hk ha)
  · exact hfirst
  · intro e' k hb hk ha ho
    rw [hsockets] at hk
    by_cases heq : e' = e
    · subst heq
      rw [hself] at ha ⊢
      exact hidle k hb hk ha ho
    · rw [hat e' heq] at ha ⊢
      exact h.idle e' k (fun hbusy => hb ((hother e' heq).1 hbusy)) hk ha ho
  · intro e'
    rcases h.balance e' with hr | hb
    · exact .inl (hr.append l)
    · by_cases heq : e' = e
      · subst heq
        rw [hself]
        apply hbalance.imp_right
        intro hmoved
        rw [written_append, sentTo_append, ← hb]
        simp only [List.append_assoc] at hmoved ⊢
        rw [hmoved]
      · obtain ⟨-, hwritten, hsent, hwaiting⟩ := hother e' heq
        right
        rw [hat e' heq, written_append, sentTo_append, hwritten, hsent, hwaiting, List.append_nil, List.append_nil, hb]

theorem setEntry_id (s : State) (e : Nat) : s.setEntry e id = s := by
  unfold State.setEntry
  rw [id, Function.update_eq_self]

theorem only_self (e : Nat) (data : JsString) : only e data e = [data] := Function.update_self ..

theorem only_ne {e e' : Nat} (h : e' ≠ e) (data : JsString) : only e data e' = [] := Function.update_of_ne h ..

/-- A call of `send` for a registered worker. -/
theorem Inv.sent {e : Nat} (h : Settled s) (he : e < s.entryCount) (data : JsString) :
    Inv (only e data) (fun _ => False) (s.record (.sent e data)) := by
  have hnew : Inv (only e data) (fun _ => False) ((s.setEntry e id).record (.sent e data)) := by
    refine h.update he (f := id) (l := [.sent e data]) rfl rfl (fun _ _ ha => .inl ha)
      (h.first.snoc (by simp [Record.through])) (fun k hb hk ha ho => h.idle e k hb hk ha ho) (.inr ?_) ?_ (by simp)
    · have hnone : written e [Record.sent e data] = [] := rfl
      rw [hnone, sentTo_sent, only_self]
      simp
    · intro e' hne
      have hnone : written e' [Record.sent e data] = [] := rfl
      exact ⟨id, hnone, by rw [sentTo_sent, only_ne hne], only_ne hne data⟩
  rw [setEntry_id] at hnew
  exact hnew

/-- A message that a socket accepts takes the place of what waited. -/
theorem Inv.wrote {e k : Nat} {data : JsString} (h : Inv waiting busy s) (he : e < s.entryCount)
    (hauth : .authenticated e k ∈ s.log) (hopen : (s.sockets k).isOpen = true) (isOpen : Bool) {f : Entry → Entry}
    (hkeeps : ∀ x, (f x).key = x.key ∧ (f x).socket = x.socket ∧ (f x).socketAuthenticated = x.socketAuthenticated)
    (hidle : (s.entries e).outbound = [] → (f (s.entries e)).outbound = []) {waiting' : Nat → List JsString}
    (hother : ∀ e' ≠ e, waiting' e' = waiting e')
    (hmoved : [data] ++ (f (s.entries e)).outbound ++ waiting' e = (s.entries e).outbound ++ waiting e) :
    Inv waiting' busy (((afterSend s k isOpen).record (.wrote e k data)).setEntry e f) := by
  have hc := h.calm (calm_afterSend s k isOpen hopen)
  obtain ⟨hkey, hsocket, hsame⟩ := hkeeps (s.entries e)
  refine hc.update he (f := f) (l := [.wrote e k data]) hkey hsocket
    (fun _ _ ha => .inl (hsame ▸ ha)) (hc.first.snoc ?_)
    (fun k hb hk ha ho => hidle (hc.idle e k hb hk (hsame ▸ ha) ho)) (.inr ?_) ?_ (by simp)
  · intro e' k' hthrough
    cases hthrough
    exact hauth
  · have hnone : sentTo e [Record.wrote e k data] = [] := rfl
    rw [written_wrote, if_pos rfl, hnone, List.append_nil]
    exact hmoved
  · intro e' hne
    have hnone : sentTo e' [Record.wrote e k data] = [] := rfl
    exact ⟨id, by rw [written_wrote, if_neg (Ne.symm hne)], hnone, hother e' hne⟩

theorem unbind_ne (s : State) (e k : Nat) : ((unbind s e k).entries e).socket ≠ some k := by
  unfold unbind
  split
  · simp
  · assumption

/-- A socket that is closed is not bound any more. -/
theorem closeSocket_ne (w : World) (s : State) (e k : Nat) : ((closeSocket w s e k).entries e).socket ≠ some k := by
  have hne := unbind_ne s e k
  have hc : Calm (unbind s e k) (closeSocket w s e k) := by
    unfold closeSocket
    dsimp only
    split
    · exact calm_shut _ k
    · exact (calm_shut _ k).trans (calm_reportRuntimeError _ e w)
  rcases hc.socket e with ⟨hsame, -⟩ | hnone
  · rw [hsame]
    exact hne
  · rw [hnone]
    simp

/-- What an attempt leaves: the message is written, or the socket is of no use. -/
theorem sendNow_cases {e k : Nat} {data : JsString} {ok : Bool} (h : sendNow w s e k data = (t, ok)) :
    (ok = true ∧ (s.sockets k).isOpen = true ∧ ∃ isOpen, t = (afterSend s k isOpen).record (.wrote e k data)) ∨
      (ok = false ∧ Calm s t ∧ ((t.sockets k).isOpen = false ∨ (t.entries e).socket ≠ some k)) := by
  unfold sendNow at h
  split at h
  · rename_i hclosed
    cases h
    exact .inr ⟨rfl, Calm.refl s, .inl hclosed⟩
  · rename_i hopen
    rw [Bool.not_eq_false] at hopen
    dsimp only at h
    split at h
    · cases h
      exact .inl ⟨rfl, hopen, _, rfl⟩
    · cases h
      exact .inr ⟨rfl, ((calm_afterSend s k _ hopen).trans (calm_reportRuntimeError _ e w)).trans (calm_closeSocket _ e k w),
        .inr (closeSocket_ne w _ e k)⟩

/-- What waits is queued, or the entry overflows. -/
theorem Inv.queueOutbound {e : Nat} {data : JsString} (h : Inv (only e data) (fun _ => False) s) (he : e < s.entryCount)
    (hdead : ∀ k, (s.entries e).socket = some k → (s.entries e).socketAuthenticated = false) (w : World) :
    Settled (queueOutbound w s e data) := by
  unfold ServerSocket.queueOutbound
  split
  · -- the entry is released, and what follows is calm
    have hover : Settled ((s.setEntry e ({ · with outbound := [] })).record (.overflow e)) := by
      refine h.update he (f := ({ · with outbound := [] })) (l := [.overflow e]) rfl rfl (fun _ _ ha => .inl ha)
        (h.first.snoc (by simp [Record.through])) (fun _ _ _ _ _ => rfl) (.inl (.inl (by simp))) ?_ (by simp)
      exact fun e' hne => ⟨id, rfl, rfl, (only_ne hne data).symm⟩
    have hreport := hover.calm (calm_reportRuntimeError _ e w)
    dsimp only
    split
    · exact hreport
    · rename_i k _
      exact hreport.calm (calm_closeSocket _ e k w)
  · have hpush : Settled { s.setEntry e fun entry => { entry with outbound := entry.outbound ++ [data] } with
        log := s.log ++ [] } := by
      refine h.update he (f := fun entry => { entry with outbound := entry.outbound ++ [data] }) rfl rfl
        (fun _ _ ha => .inl ha) (by rw [List.append_nil]; exact h.first) ?_ (.inr ?_) ?_ (by simp)
      · intro k _ hk ha
        dsimp only at ha
        rw [hdead k hk] at ha
        cases ha
      · rw [only_self]
        simp [written, sentTo]
      · exact fun e' hne => ⟨id, rfl, rfl, (only_ne hne data).symm⟩
    rw [List.append_nil] at hpush
    exact hpush

/-! ## The calls of the manager -/

theorem pending_lt (h : Settled s) {key : JsString} {e : Nat} (hp : s.pending key = some e) : e < s.entryCount :=
  (h.pending key e hp).1

theorem settled_send (h : Settled s) (w : World) (key data : JsString) : Settled (send w s key data) := by
  unfold send
  split
  · exact h
  · rename_i e hp
    have he := pending_lt h hp
    have hsent := Inv.sent h he data
    dsimp only
    split
    · rename_i hsocket
      exact hsent.queueOutbound he (fun k hk => by rw [hsocket] at hk; cases hk) w
    · rename_i k hsocket
      split
      · rename_i hauth
        exact hsent.queueOutbound he (fun _ _ => hauth) w
      · rename_i hauth
        rw [Bool.not_eq_false] at hauth
        split
        · rename_i t heq
          rcases sendNow_cases heq with ⟨-, hopen, isOpen, rfl⟩ | ⟨hok, -⟩
          · -- the socket is open, so nothing waits before the message
            have hempty := hsent.idle e k id hsocket hauth hopen
            have hwrote : Settled ((((afterSend (s.record (.sent e data)) k isOpen).record (.wrote e k data))).setEntry e id) := by
              refine hsent.wrote he (hsent.auth e k hsocket hauth) hopen isOpen (fun _ => ⟨rfl, rfl, rfl⟩) id
                (fun e' hne => (only_ne hne data).symm) ?_
              rw [only_self]
              simp only [hempty, List.append_nil, List.nil_append]
            rw [setEntry_id] at hwrote
            exact hwrote
          · cases hok
        · rename_i t heq
          rcases sendNow_cases heq with ⟨hok, -⟩ | ⟨-, hc, -⟩
          · cases hok
          · -- the socket is unbound, if the attempt has not done so
            have hclosed : Calm (s.record (.sent e data)) (if (t.entries e).socket = some k then closeSocket w t e k else t) ∧
                ((if (t.entries e).socket = some k then closeSocket w t e k else t).entries e).socket ≠ some k := by
              split
              · exact ⟨hc.trans (calm_closeSocket t e k w), closeSocket_ne w t e k⟩
              · exact ⟨hc, by assumption⟩
            obtain ⟨hcalm, hne⟩ := hclosed
            refine (hsent.calm hcalm).queueOutbound ?_ ?_ w
            · rw [hcalm.entryCount]
              exact he
            · intro k' hk'
              rcases hcalm.socket e with ⟨hsame, -⟩ | hnone
              · rw [hsame] at hne
                exact absurd hsocket hne
              · rw [hnone] at hk'
                cases hk'

theorem Inv.settled {e : Nat} (h : Inv (fun _ => []) (· = e) s)
    (hidle : ∀ k, (s.entries e).socket = some k → (s.sockets k).isOpen = true → (s.entries e).outbound = []) : Settled s := by
  refine ⟨h.fresh, h.pending, h.live, h.past, h.keys, h.bound, h.auth, h.first, ?_, h.balance⟩
  intro e' k' _ hk ha ho
  by_cases heq : e' = e
  · subst heq
    exact hidle k' hk ho
  · exact h.idle e' k' heq hk ha ho

/-- The rounds of the loop do not run out before nothing waits or the socket is of no use. -/
theorem settled_flushOutbound {e k rounds : Nat} (h : Inv (fun _ => []) (· = e) s) (he : e < s.entryCount)
    (hauth : .authenticated e k ∈ s.log) (hsocket : ∀ k', (s.entries e).socket = some k' → k' = k)
    (hrounds : (s.entries e).outbound.length ≤ rounds) (w : World) : Settled (flushOutbound w e k rounds s) := by
  induction rounds generalizing s with
  | zero => exact h.settled fun _ _ _ => List.length_eq_zero_iff.1 (Nat.le_zero.1 hrounds)
  | succ rounds ih =>
    unfold flushOutbound
    split
    · rename_i hempty
      exact h.settled fun _ _ _ => hempty
    · rename_i data rest hqueue
      split
      · rename_i t heq
        rcases sendNow_cases heq with ⟨hok, -⟩ | ⟨-, hc, hdead⟩
        · cases hok
        · -- the socket is not open or not bound any more
          apply (h.calm hc).settled
          intro k' hk ho
          have hk' : k' = k := by
            rcases hc.socket e with ⟨hsame, -⟩ | hnone
            · exact hsocket k' (hsame ▸ hk)
            · rw [hnone] at hk
              cases hk
          subst hk'
          rcases hdead with hclosed | hne
          · rw [hclosed] at ho
            cases ho
          · exact absurd hk hne
      · rename_i t heq
        rcases sendNow_cases heq with ⟨-, hopen, isOpen, rfl⟩ | ⟨hok, -⟩
        · have hwrote : Inv (fun _ => []) (· = e) (((afterSend s k isOpen).record (.wrote e k data)).setEntry e
              fun entry => { entry with outbound := entry.outbound.tail }) := by
            refine h.wrote he hauth hopen isOpen (f := fun entry => { entry with outbound := entry.outbound.tail })
              (fun _ => ⟨rfl, rfl, rfl⟩) ?_ (fun _ _ => rfl) ?_
            · intro hempty
              simp [hempty]
            · simp [hqueue]
          have hself : ((((afterSend s k isOpen).record (.wrote e k data)).setEntry e
              fun entry => { entry with outbound := entry.outbound.tail }).entries e) =
              { s.entries e with outbound := (s.entries e).outbound.tail } := entries_setEntry_self ..
          apply ih hwrote he
          · exact List.mem_append_left _ hauth
          · rw [hself]
            exact hsocket
          · rw [hself, hqueue]
            rw [hqueue] at hrounds
            exact Nat.le_of_succ_le_succ hrounds
        · cases hok

theorem settled_registerWorker (h : Settled s) {key : JsString} (hnew : ∀ e < s.entryCount, (s.entries e).key ≠ key)
    (tokenHash : JsString) : Settled (registerWorker s key tokenHash) := by
  obtain ⟨hfreshSocket, hfreshOutbound⟩ := h.fresh s.entryCount (le_refl _)
  have hself : (registerWorker s key tokenHash).entries s.entryCount = { key, tokenHash } := Function.update_self ..
  have hat : ∀ e ≠ s.entryCount, (registerWorker s key tokenHash).entries e = s.entries e :=
    fun e hne => Function.update_of_ne hne ..
  have hcount : (registerWorker s key tokenHash).entryCount = s.entryCount + 1 := rfl
  have hbound : ∀ e k, ((registerWorker s key tokenHash).entries e).socket = some k → e ≠ s.entryCount := by
    rintro e k hk rfl
    rw [hself] at hk
    cases hk
  constructor
  · intro e he
    rw [hcount] at he
    rw [hat e (by omega)]
    exact h.fresh e (by omega)
  · intro key' e hp
    by_cases hkey : key' = key
    · subst hkey
      have he : (registerWorker s key' tokenHash).pending key' = some s.entryCount := Function.update_self ..
      rw [he] at hp
      cases hp
      rw [hself, hcount]
      exact ⟨by omega, rfl⟩
    · have hother : (registerWorker s key tokenHash).pending key' = s.pending key' := Function.update_of_ne hkey ..
      rw [hother] at hp
      obtain ⟨he, hk⟩ := h.pending key' e hp
      rw [hat e (by omega), hcount]
      exact ⟨by omega, hk⟩
  · intro key' e hp hr
    by_cases hkey : key' = key
    · subst hkey
      have he : (registerWorker s key' tokenHash).pending key' = some s.entryCount := Function.update_self ..
      rw [he] at hp
      cases hp
      exact absurd (h.past _ hr) (by omega)
    · have hother : (registerWorker s key tokenHash).pending key' = s.pending key' := Function.update_of_ne hkey ..
      rw [hother] at hp
      exact h.live key' e hp hr
  · intro e hr
    have := h.past e hr
    rw [hcount]
    omega
  · intro e₁ he₁ e₂ he₂ heq
    rw [hcount] at he₁ he₂
    by_cases h₁ : e₁ = s.entryCount
    · by_cases h₂ : e₂ = s.entryCount
      · rw [h₁, h₂]
      · subst h₁
        rw [hself, hat e₂ h₂] at heq
        exact absurd heq.symm (hnew e₂ (by omega))
    · by_cases h₂ : e₂ = s.entryCount
      · subst h₂
        rw [hself, hat e₁ h₁] at heq
        exact absurd heq (hnew e₁ (by omega))
      · rw [hat e₁ h₁, hat e₂ h₂] at heq
        exact h.keys e₁ (by omega) e₂ (by omega) heq
  · intro e k hk
    rw [hat e (hbound e k hk)] at hk
    exact h.bound e k hk
  · intro e k hk ha
    have hne := hbound e k hk
    rw [hat e hne] at hk ha
    exact h.auth e k hk ha
  · exact h.first
  · intro e k hb hk ha ho
    have hne := hbound e k hk
    rw [hat e hne] at hk ha ⊢
    exact h.idle e k hb hk ha ho
  · intro e
    by_cases he : e = s.entryCount
    · subst he
      have hb := h.balance s.entryCount
      rw [hfreshOutbound] at hb
      rw [hself]
      exact hb
    · rw [hat e he]
      exact h.balance e

/-- A new socket is bound; it has not authenticated. -/
theorem settled_attach (h : Settled s) {e : Nat} (he : e < s.entryCount) (isOpen : Bool) : Settled (attach s e isOpen) := by
  have hself : (attach s e isOpen).entries e =
      { s.entries e with socket := some s.socketCount, socketAuthenticated := false, authTimer := some s.socketCount } :=
    Function.update_self ..
  have hat : ∀ e' ≠ e, (attach s e isOpen).entries e' = s.entries e' := fun e' hne => Function.update_of_ne hne ..
  have hsocket : (attach s e isOpen).sockets s.socketCount = { entry := e, isOpen } := sockets_setSocket_self ..
  have hsockets : ∀ k ≠ s.socketCount, (attach s e isOpen).sockets k = s.sockets k :=
    fun k hne => sockets_setSocket_ne _ _ _ hne
  have hkeys : ∀ e', ((attach s e isOpen).entries e').key = (s.entries e').key ∧
      ((attach s e isOpen).entries e').outbound = (s.entries e').outbound := by
    intro e'
    by_cases heq : e' = e
    · subst heq
      rw [hself]
      exact ⟨rfl, rfl⟩
    · rw [hat e' heq]
      exact ⟨rfl, rfl⟩
  have hcounts : (attach s e isOpen).entryCount = s.entryCount ∧ (attach s e isOpen).socketCount = s.socketCount + 1 :=
    ⟨rfl, rfl⟩
  -- a socket that was bound before is another one
  have hbound : ∀ e' k, e' ≠ e → ((attach s e isOpen).entries e').socket = some k → k ≠ s.socketCount := by
    rintro e' k hne hk rfl
    rw [hat e' hne] at hk
    exact absurd (h.bound e' _ hk).1 (by omega)
  constructor
  · intro e' he'
    rw [hcounts.1] at he'
    rw [hat e' (by omega)]
    exact h.fresh e' he'
  · intro key e' hp
    rw [(hkeys e').1]
    exact h.pending key e' hp
  · exact h.live
  · exact h.past
  · intro e₁ he₁ e₂ he₂
    rw [(hkeys e₁).1, (hkeys e₂).1]
    exact h.keys e₁ he₁ e₂ he₂
  · intro e' k hk
    rw [hcounts.2]
    by_cases heq : e' = e
    · subst heq
      rw [hself] at hk
      cases hk
      rw [hsocket]
      exact ⟨by omega, rfl⟩
    · have hne := hbound e' k heq hk
      rw [hat e' heq] at hk
      obtain ⟨hlt, howner⟩ := h.bound e' k hk
      rw [hsockets k hne]
      exact ⟨by omega, howner⟩
  · intro e' k hk ha
    by_cases heq : e' = e
    · subst heq
      rw [hself] at ha
      cases ha
    · rw [hat e' heq] at hk ha
      exact h.auth e' k hk ha
  · exact h.first
  · intro e' k hb hk ha ho
    by_cases heq : e' = e
    · subst heq
      rw [hself] at ha
      cases ha
    · rw [hsockets k (hbound e' k heq hk)] at ho
      rw [hat e' heq] at hk ha ⊢
      exact h.idle e' k hb hk ha ho
  · intro e'
    rw [(hkeys e').2]
    exact h.balance e'

theorem settled_bindSocket (h : Settled s) (w : World) (key : JsString) (isOpen : Bool) : Settled (bindSocket w s key isOpen) := by
  unfold bindSocket
  split
  · exact h.calm (calm_record s rfl nofun)
  · rename_i e hp
    have he := pending_lt h hp
    split
    · exact settled_attach h he isOpen
    · rename_i old _
      split
      · exact h.calm (calm_record s rfl nofun)
      · have hc := calm_closeSocket s e old w
        apply settled_attach (h.calm hc)
        rw [hc.entryCount]
        exact he

theorem bound_lt (h : Settled s) {e k : Nat} (hk : (s.entries e).socket = some k) : e < s.entryCount := by
  by_contra hlt
  rw [(h.fresh e (by omega)).1] at hk
  cases hk

theorem socket_clearAuthTimer (s : State) (e : Nat) : ((clearAuthTimer s e).entries e).socket = (s.entries e).socket := by
  unfold clearAuthTimer
  split
  · rfl
  · simp

theorem settled_onMessage (h : Settled s) (w : World) (k : Nat) (text : JsString) : Settled (onMessage w s k text) := by
  unfold onMessage
  dsimp only
  split
  · exact h
  · rename_i hbound
    rw [ne_eq, not_not] at hbound
    have he := bound_lt h hbound
    split
    · rename_i ha
      unfold deliverIpcText
      split
      · exact (h.calm (calm_callback s w (r := .invalidOutput _) rfl nofun)).calm (calm_closeSocket _ _ k w)
      · have hnew : Settled ((s.setEntry (s.sockets k).entry id).record (.delivered (s.sockets k).entry k text)) := by
          refine h.update he (f := id) (l := [.delivered (s.sockets k).entry k text]) rfl rfl (fun _ _ ha => .inl ha)
            (h.first.snoc ?_) (fun k hb hk ha ho => h.idle _ k hb hk ha ho) (.inr ?_) (fun _ _ => ⟨id, rfl, rfl, rfl⟩)
            (by simp)
          · intro e' k' hthrough
            cases hthrough
            exact h.auth _ k hbound ha
          · simp [written, sentTo]
        rw [setEntry_id] at hnew
        exact hnew
    · split
      · exact h.calm (calm_closeSocket s _ k w)
      · -- the socket has authenticated, and what waits is flushed
        have hclear := h.calm (calm_clearAuthTimer s (s.sockets k).entry)
        have hsocket : ((clearAuthTimer s (s.sockets k).entry).entries (s.sockets k).entry).socket = some k := by
          rw [socket_clearAuthTimer, hbound]
        have hlt := bound_lt hclear hsocket
        have hnew : Inv (fun _ => []) (· = (s.sockets k).entry)
            (((clearAuthTimer s (s.sockets k).entry).setEntry (s.sockets k).entry
              ({ · with socketAuthenticated := true })).record (.authenticated (s.sockets k).entry k)) := by
          refine hclear.update hlt (f := ({ · with socketAuthenticated := true }))
            (l := [.authenticated (s.sockets k).entry k]) rfl rfl ?_ (hclear.first.snoc (by simp [Record.through]))
            (fun _ hb => absurd rfl hb) (.inr (by simp [written, sentTo])) (fun _ _ => ⟨False.elim, rfl, rfl, rfl⟩) (by simp)
          intro k' hk' _
          rw [hsocket] at hk'
          cases hk'
          exact .inr List.mem_cons_self
        apply settled_flushOutbound hnew hlt
        · exact List.mem_append_right _ List.mem_cons_self
        · intro k' hk'
          rw [entries_record, entries_setEntry_self] at hk'
          rw [hsocket] at hk'
          cases hk'
          rfl
        · exact le_refl _

/-- Every step keeps the invariant. -/
theorem settled_next (h : Settled s) (w : World) {ev : Event} (honce : registersOnce s ev = true) : Settled (next w s ev) := by
  cases ev with
  | setUnknownWorkerConnectionsRetryable enabled =>
    exact ⟨h.fresh, h.pending, h.live, h.past, h.keys, h.bound, h.auth, h.first, h.idle, h.balance⟩
  | registerWorker instanceId workerId tokenHash =>
    apply settled_registerWorker h
    simpa [registersOnce] using honce
  | bindSocket instanceId workerId isOpen => exact settled_bindSocket h w _ isOpen
  | send instanceId workerId data => exact settled_send h w _ data
  | unregister instanceId workerId => exact h.calm (calm_unregister s _)
  | message k text => exact settled_onMessage h w k text
  | deliveryFailed k => exact (h.calm (calm_reportRuntimeError s _ w)).calm (calm_closeSocket _ _ k w)
  | error k =>
    unfold next onError
    dsimp only
    split
    · exact h.calm (calm_reportRuntimeError s _ w)
    · exact h
  | notOpen k => exact h.calm (calm_setSocket s k rfl (by simp))
  | close k =>
    have hclosed : Calm s (s.setSocket k { s.sockets k with isOpen := false }) := calm_setSocket s k rfl (by simp)
    exact (h.calm hclosed).calm (calm_unbind _ _ k)
  | authTimeout e k =>
    have htimer : Settled { s with timers := s.timers.erase (e, k) } :=
      ⟨h.fresh, h.pending, h.live, h.past, h.keys, h.bound, h.auth, h.first, h.idle, h.balance⟩
    unfold next onAuthTimeout
    dsimp only
    split
    · exact htimer.calm (calm_closeSocket _ e k w)
    · exact htimer

end Leitwerk.Ipc.ServerSocket
