import Leitwerk.Transfer.Service
/-!
# Steps that advance no attempt

Most of what the service does to an attempt ends it, renews its lease or deletes
it. `Quiet` is what such a step keeps, for all attempts at once; it composes, so
loops over attempts are quiet when each round is.
-/

namespace Leitwerk.Transfer

/-- The row of an attempt. -/
def Service.row (s : Service) (i : Nat) : Option SessionTransferAttempt := s.db.attempts.get? i

/-- A runtime without its signal. -/
def AttemptRuntime.bare (r : AttemptRuntime) : AttemptRuntime := { r with aborted := none }

/-- What identifies an attempt, and its archive. -/
structure SameAttempt (a a' : SessionTransferAttempt) : Prop where
  id : a'.id = a.id
  grantId : a'.grantId = a.grantId
  instanceId : a'.instanceId = a.instanceId
  compressedBytes : a'.compressedBytes = a.compressedBytes
  streamSha256 : a'.streamSha256 = a.streamSha256

theorem SameAttempt.refl (a : SessionTransferAttempt) : SameAttempt a a := ⟨rfl, rfl, rfl, rfl, rfl⟩

theorem SameAttempt.trans {a b c : SessionTransferAttempt} (h : SameAttempt a b) (h' : SameAttempt b c) : SameAttempt a c :=
  ⟨h'.id.trans h.id, h'.grantId.trans h.grantId, h'.instanceId.trans h.instanceId,
    h'.compressedBytes.trans h.compressedBytes, h'.streamSha256.trans h.streamSha256⟩

/-- An attempt that keeps its phase or is ended without an acknowledgement. -/
structure Rests (a a' : SessionTransferAttempt) : Prop where
  same : SameAttempt a a'
  phase : a'.phase = a.phase ∨ a.phase.terminal = false ∧ (a'.phase = .cancelled ∨ a'.phase = .failed)

theorem Rests.refl (a : SessionTransferAttempt) : Rests a a := ⟨.refl a, .inl rfl⟩

theorem Rests.trans {a b c : SessionTransferAttempt} (h : Rests a b) (h' : Rests b c) : Rests a c := by
  refine ⟨h.same.trans h'.same, ?_⟩
  rcases h'.phase with hp' | ⟨hactive, hended⟩
  · rw [hp']
    exact h.phase
  · rcases h.phase with hp | ⟨-, hp | hp⟩
    · exact .inr ⟨hp ▸ hactive, hended⟩
    · rw [hp] at hactive
      cases hactive
    · rw [hp] at hactive
      cases hactive

/-- An attempt that is active after a quiet step was, in the same phase. -/
theorem Rests.active {a a' : SessionTransferAttempt} (h : Rests a a') (ha : a'.phase.terminal = false) :
    a'.phase = a.phase := by
  rcases h.phase with hp | ⟨-, hp | hp⟩
  · exact hp
  · rw [hp] at ha
    cases ha
  · rw [hp] at ha
    cases ha

/-- An attempt that ended stays as it ended. -/
theorem Rests.ended {a a' : SessionTransferAttempt} (h : Rests a a') (ha : a.phase.terminal = true) : a'.phase = a.phase := by
  rcases h.phase with hp | ⟨hactive, -⟩
  · exact hp
  · rw [ha] at hactive
    cases hactive

structure Quiet (s t : Service) : Prop where
  rows : ∀ i a', t.row i = some a' → ∃ a, s.row i = some a ∧ Rests a a'
  grants : ∀ g x, t.db.grants.get? g = some x → s.db.grants.get? g = some x
  kept : ∀ g x i a, t.db.grants.get? g = some x → s.row i = some a → a.grantId = g → ∃ a', t.row i = some a'
  granted : ∀ i a, t.row i = some a → t.db.grants.get? a.grantId = s.db.grants.get? a.grantId
  nextAttempt : t.db.nextAttempt = s.db.nextAttempt
  nextGrant : t.db.nextGrant = s.db.nextGrant
  launched : ∀ k, (t.launched.get? k).map AttemptRuntime.bare = (s.launched.get? k).map AttemptRuntime.bare
  nextLaunch : t.nextLaunch = s.nextLaunch
  runtimes : ∀ i k, t.runtimes.get? i = some k → s.runtimes.get? i = some k

variable {s t u : Service}

theorem Quiet.refl (s : Service) : Quiet s s where
  rows _ a' h := ⟨a', h, .refl a'⟩
  grants _ _ h := h
  kept _ _ _ a _ h _ := ⟨a, h⟩
  granted _ _ _ := rfl
  nextAttempt := rfl
  nextGrant := rfl
  launched _ := rfl
  nextLaunch := rfl
  runtimes _ _ h := h

theorem Quiet.trans (h : Quiet s t) (h' : Quiet t u) : Quiet s u where
  rows i c hc := by
    obtain ⟨b, hb, hbc⟩ := h'.rows i c hc
    obtain ⟨a, ha, hab⟩ := h.rows i b hb
    exact ⟨a, ha, hab.trans hbc⟩
  grants g x hx := h.grants g x (h'.grants g x hx)
  kept g x i a hx ha hg := by
    obtain ⟨b, hb⟩ := h.kept g x i a (h'.grants g x hx) ha hg
    obtain ⟨a₀, ha₀, hab⟩ := h.rows i b hb
    rw [ha, Option.some.injEq] at ha₀
    subst ha₀
    exact h'.kept g x i b hx hb (hab.same.grantId.trans hg)
  granted i c hc := by
    obtain ⟨b, hb, hbc⟩ := h'.rows i c hc
    rw [h'.granted i c hc, hbc.same.grantId, h.granted i b hb]
  nextAttempt := h'.nextAttempt.trans h.nextAttempt
  nextGrant := h'.nextGrant.trans h.nextGrant
  launched k := (h'.launched k).trans (h.launched k)
  nextLaunch := h'.nextLaunch.trans h.nextLaunch
  runtimes i k hk := h.runtimes i k (h'.runtimes i k hk)

/-! ## Updates -/

/-- An update of one row that rests, beside what only touches signals and lookups. -/
theorem Quiet.update {i : Nat} {f : SessionTransferAttempt → SessionTransferAttempt}
    (hrows : t.db = s.db.updateAttempt i f) (hf : ∀ a, s.row i = some a → Rests a (f a))
    (hl : ∀ k, (t.launched.get? k).map AttemptRuntime.bare = (s.launched.get? k).map AttemptRuntime.bare)
    (hn : t.nextLaunch = s.nextLaunch) (hr : ∀ i k, t.runtimes.get? i = some k → s.runtimes.get? i = some k) : Quiet s t := by
  have hrow : ∀ j, t.row j = if j = i then (s.row j).map f else s.row j := by
    intro j
    unfold Service.row
    rw [hrows]
    exact Table.get?_modify _ _ _ _
  refine ⟨fun j a' ha' => ?_, fun g x hx => by rw [hrows] at hx; exact hx, fun g x j a _ ha _ => ?_,
    fun j a _ => by rw [hrows]; rfl, by rw [hrows]; rfl, by rw [hrows]; rfl, hl, hn, hr⟩
  · rw [hrow] at ha'
    split at ha'
    · rename_i hji
      subst hji
      obtain ⟨a, ha, rfl⟩ := Option.map_eq_some_iff.1 ha'
      exact ⟨a, ha, hf a ha⟩
    · exact ⟨a', ha', .refl a'⟩
  · rw [hrow, ha]
    split
    · exact ⟨f a, rfl⟩
    · exact ⟨a, rfl⟩

theorem abort_bare (r : AttemptRuntime) (why : String) : (r.abort why).bare = r.bare := rfl

theorem launched_abort (launched : Table Nat AttemptRuntime) (launch : Nat) (why : String) (k : Nat) :
    ((launched.modify launch (·.abort why)).get? k).map AttemptRuntime.bare =
      (launched.get? k).map AttemptRuntime.bare := by
  rw [Table.get?_modify]
  split
  · rw [Option.map_map]
    rfl
  · rfl

theorem runtimes_remove (s : Service) (attemptId : Nat) {i k : Nat}
    (h : (s.runtimes.remove attemptId).get? i = some k) : s.runtimes.get? i = some k := by
  rw [Table.get?_remove] at h
  split at h
  · cases h
  · exact h

theorem quiet_transitionTerminal (s : Service) (id : Nat) (cancelled : Bool) (code : String) (now : Nat) :
    Quiet s (s.transitionTerminal id cancelled code now) := by
  unfold Service.transitionTerminal
  cases hrow : s.db.attempts.get? id with
  | none => exact .refl s
  | some current =>
    dsimp only
    split
    · exact .refl s
    · rename_i hactive
      refine Quiet.update (i := id) rfl (fun a ha => ?_) (fun k => ?_) rfl fun i k hk => runtimes_remove s id hk
      · have hcur : current = a := by
          unfold Service.row at ha
          rw [hrow, Option.some.injEq] at ha
          exact ha
        subst hcur
        refine ⟨⟨rfl, rfl, rfl, rfl, rfl⟩, .inr ⟨by simpa using hactive, ?_⟩⟩
        cases cancelled
        · exact .inr rfl
        · exact .inl rfl
      · dsimp only
        split
        · exact launched_abort _ _ _ _
        · rfl

theorem quiet_failAttempt (s : Service) (id : Nat) (code : String) (now : Nat) : Quiet s (s.failAttempt id code now) :=
  quiet_transitionTerminal s id false code now

theorem quiet_cancelAttempt (s : Service) (id : Nat) (code : String) (now : Nat) : Quiet s (s.cancelAttempt id code now) :=
  quiet_transitionTerminal s id true code now

theorem quiet_cancelIfExpired (s : Service) (attempt : SessionTransferAttempt) (now : Nat) :
    Quiet s (s.cancelIfExpired attempt now) := by
  unfold Service.cancelIfExpired
  split
  · exact quiet_cancelAttempt _ _ _ _
  · exact .refl s

theorem quiet_dropRuntime (s : Service) (attemptId : Nat) : Quiet s (s.dropRuntime attemptId) :=
  { Quiet.refl s with runtimes := fun _ _ h => runtimes_remove s attemptId h }

theorem quiet_renew (s : Service) (id now leaseMs : Nat) : Quiet s { s with db := s.db.renew id now leaseMs } := by
  unfold Db.renew
  split
  · exact .refl s
  · split
    · exact .refl s
    · exact Quiet.update (i := id) rfl (fun a _ => ⟨⟨rfl, rfl, rfl, rfl, rfl⟩, .inl rfl⟩) (fun _ => rfl) rfl fun _ _ h => h

/-- Deleting grants deletes their attempts and no others. -/
theorem quiet_deleteGrants (s : Service) (gone : SessionTransferGrant → Bool) :
    Quiet s { s with db := s.db.deleteGrants gone } := by
  have hrow : ∀ i, Service.row { s with db := s.db.deleteGrants gone } i =
      (s.row i).filter fun a => !(s.db.grants.get? a.grantId).any gone := fun i => Table.get?_filter _ _ _
  have hgrant : ∀ g, (s.db.deleteGrants gone).grants.get? g = (s.db.grants.get? g).filter fun x => !gone x :=
    fun g => Table.get?_filter _ _ _
  refine ⟨fun i a' ha' => ?_, fun g x hx => ?_, fun g x i a hx ha hg => ?_, fun i a ha => ?_, rfl, rfl, fun _ => rfl, rfl,
    fun _ _ h => h⟩
  · rw [hrow] at ha'
    exact ⟨a', (Option.filter_eq_some_iff.1 ha').1, .refl a'⟩
  · rw [hgrant] at hx
    exact (Option.filter_eq_some_iff.1 hx).1
  · rw [hgrant] at hx
    obtain ⟨hx, hkeep⟩ := Option.filter_eq_some_iff.1 hx
    subst hg
    refine ⟨a, ?_⟩
    rw [hrow, ha]
    refine Option.filter_some_pos ?_
    rw [hx]
    exact hkeep
  · rw [hrow] at ha
    have hkeep := (Option.filter_eq_some_iff.1 ha).2
    show (s.db.deleteGrants gone).grants.get? a.grantId = _
    rw [hgrant]
    cases hx : s.db.grants.get? a.grantId with
    | none => rfl
    | some x =>
      rw [hx] at hkeep
      exact Option.filter_some_pos hkeep

/-- A loop whose rounds are quiet is quiet. -/
theorem quiet_foldl {α : Type} (f : Service → α → Service) (hf : ∀ s a, Quiet s (f s a)) (l : List α) (s : Service) :
    Quiet s (l.foldl f s) := by
  induction l generalizing s with
  | nil => exact .refl s
  | cons a l ih => exact (hf s a).trans (ih (f s a))

/-! ## Quiet events -/

theorem quiet_sweep (s : Service) (now : Nat) : Quiet s (s.sweep now) :=
  (quiet_foldl _ (fun s a => quiet_cancelIfExpired s a now) _ s).trans (quiet_deleteGrants _ _)

theorem quiet_revokeProcess (s : Service) (instanceId : String) (now : Nat) : Quiet s (s.revokeProcess instanceId now) := by
  unfold Service.revokeProcess
  dsimp only
  split
  · exact (quiet_cancelAttempt s _ _ now).trans (quiet_deleteGrants _ _)
  · exact quiet_deleteGrants _ _

section
variable (s : Service) (hash : String → String) (auth : Db.AttemptAuth) (now : Nat)

theorem quiet_heartbeat : Quiet s (s.heartbeat hash auth now) := by
  unfold Service.heartbeat
  split
  · exact .refl s
  · exact (quiet_cancelIfExpired s _ now).trans (quiet_renew _ _ _ _)

theorem quiet_cancel (code : Option String) : Quiet s (s.cancel hash auth code now) := by
  unfold Service.cancel
  split
  · exact .refl s
  · exact quiet_cancelAttempt _ _ _ _

theorem quiet_cancelForWeb (instanceId : String) (attemptId : Nat) : Quiet s (s.cancelForWeb instanceId attemptId now) := by
  unfold Service.cancelForWeb
  split
  · exact .refl s
  · split
    · exact .refl s
    · exact quiet_cancelAttempt _ _ _ _

theorem quiet_stop : Quiet s s.stop := by
  refine { Quiet.refl s with launched := fun k => ?_, runtimes := fun i k h => by cases h }
  unfold Service.stop
  dsimp only
  generalize s.launched = launched
  induction s.runtimes.values generalizing launched with
  | nil => rfl
  | cons launch rest ih =>
    rw [List.foldl_cons, ih]
    exact launched_abort _ _ _ _

theorem quiet_endStream (r : AttemptRuntime) (stream : ArchiveStream) (why : String) : Quiet s (s.endStream r stream why now) := by
  unfold Service.endStream
  dsimp only
  split
  · exact quiet_dropRuntime _ _
  · exact (quiet_failAttempt s _ _ _).trans (quiet_dropRuntime _ _)
end

end Leitwerk.Transfer
