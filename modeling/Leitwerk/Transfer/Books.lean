import Leitwerk.Transfer.Quiet
/-!
# The grants and attempts of a run

What is true of the database in every run: an attempt belongs to a grant of its
process, a process has one attempt at a time that is not over, and a grant is
consumed exactly when one of its attempts is.
-/

namespace Leitwerk.Transfer

structure Db.Sound (db : Db) : Prop where
  keyed : ∀ i a, db.attempts.get? i = some a → a.id = i ∧ i < db.nextAttempt
  grantKeyed : ∀ g x, db.grants.get? g = some x → x.id = g ∧ g < db.nextGrant
  granted : ∀ i a, db.attempts.get? i = some a → ∃ x, db.grants.get? a.grantId = some x ∧ x.instanceId = a.instanceId
  single : ∀ i j a b, db.attempts.get? i = some a → db.attempts.get? j = some b → a.phase.terminal = false →
    b.phase.terminal = false → a.instanceId = b.instanceId → i = j
  spent : ∀ i a x, db.attempts.get? i = some a → db.grants.get? a.grantId = some x → x.consumedAt.isSome → a.phase.terminal = true
  paid : ∀ i a x, db.attempts.get? i = some a → db.grants.get? a.grantId = some x → a.phase = .consumed → x.consumedAt.isSome
  earned : ∀ g x, db.grants.get? g = some x → x.consumedAt.isSome →
    ∃ i a, db.attempts.get? i = some a ∧ a.grantId = g ∧ a.phase = .consumed
  once : ∀ i j a b, db.attempts.get? i = some a → db.attempts.get? j = some b → a.phase = .consumed → b.phase = .consumed →
    a.grantId = b.grantId → i = j

theorem Db.Sound.empty : Db.Sound {} where
  keyed _ _ h := nomatch h
  grantKeyed _ _ h := nomatch h
  granted _ _ h := nomatch h
  single _ _ _ _ h := nomatch h
  spent _ _ _ h := nomatch h
  paid _ _ _ h := nomatch h
  earned _ _ h := nomatch h
  once _ _ _ _ h := nomatch h

/-! ## Updates that consume nothing -/

/-- An update that starts and consumes no attempt; it may delete grants with all their attempts. -/
structure Tame (db db' : Db) : Prop where
  rows : ∀ i a', db'.attempts.get? i = some a' → ∃ a, db.attempts.get? i = some a ∧ a'.id = a.id ∧ a'.grantId = a.grantId ∧
    a'.instanceId = a.instanceId ∧ (a.phase.terminal = true → a'.phase = a.phase) ∧ (a'.phase = .consumed → a.phase = .consumed)
  grants : ∀ g x, db'.grants.get? g = some x → db.grants.get? g = some x
  kept : ∀ g x i a, db'.grants.get? g = some x → db.attempts.get? i = some a → a.grantId = g → ∃ a', db'.attempts.get? i = some a'
  granted : ∀ i a, db'.attempts.get? i = some a → db'.grants.get? a.grantId = db.grants.get? a.grantId
  nextAttempt : db'.nextAttempt = db.nextAttempt
  nextGrant : db'.nextGrant = db.nextGrant

variable {db db' : Db}

theorem active_of_terminal {p q : Phase} (h : p.terminal = true → q = p) (hq : q.terminal = false) : p.terminal = false := by
  cases hp : p.terminal with
  | false => rfl
  | true => rw [h hp, hp] at hq; cases hq

theorem Db.Sound.tame (hs : Db.Sound db) (h : Tame db db') : Db.Sound db' where
  keyed i a' ha' := by
    obtain ⟨a, ha, hid, -⟩ := h.rows i a' ha'
    rw [hid, h.nextAttempt]
    exact hs.keyed i a ha
  grantKeyed g x hx := by
    rw [h.nextGrant]
    exact hs.grantKeyed g x (h.grants g x hx)
  granted i a' ha' := by
    obtain ⟨a, ha, -, hg, hi, -⟩ := h.rows i a' ha'
    obtain ⟨x, hx, hxi⟩ := hs.granted i a ha
    refine ⟨x, ?_, hxi.trans hi.symm⟩
    rw [h.granted i a' ha', hg]
    exact hx
  single i j a' b' ha' hb' hta htb hinst := by
    obtain ⟨a, ha, -, -, hai, hat, -⟩ := h.rows i a' ha'
    obtain ⟨b, hb, -, -, hbi, hbt, -⟩ := h.rows j b' hb'
    exact hs.single i j a b ha hb (active_of_terminal hat hta) (active_of_terminal hbt htb) (by rw [← hai, ← hbi, hinst])
  spent i a' x ha' hx hc := by
    obtain ⟨a, ha, -, hg, -, hat, -⟩ := h.rows i a' ha'
    rw [hg] at hx
    have hover := hs.spent i a x ha (h.grants _ x hx) hc
    rw [hat hover]
    exact hover
  paid i a' x ha' hx hc := by
    obtain ⟨a, ha, -, hg, -, -, hac⟩ := h.rows i a' ha'
    rw [hg] at hx
    exact hs.paid i a x ha (h.grants _ x hx) (hac hc)
  earned g x hx hc := by
    obtain ⟨i, a, ha, hg, hcons⟩ := hs.earned g x (h.grants g x hx) hc
    obtain ⟨a', ha'⟩ := h.kept g x i a hx ha hg
    obtain ⟨a₀, ha₀, -, hg', -, hat, -⟩ := h.rows i a' ha'
    rw [ha, Option.some.injEq] at ha₀
    subst ha₀
    exact ⟨i, a', ha', hg'.trans hg, (hat (by rw [hcons]; rfl)).trans hcons⟩
  once i j a' b' ha' hb' hca hcb hg := by
    obtain ⟨a, ha, -, hag, -, -, hac⟩ := h.rows i a' ha'
    obtain ⟨b, hb, -, hbg, -, -, hbc⟩ := h.rows j b' hb'
    exact hs.once i j a b ha hb (hac hca) (hbc hcb) (by rw [← hag, ← hbg, hg])

theorem Quiet.tame {s t : Service} (h : Quiet s t) : Tame s.db t.db where
  rows i a' ha' := by
    obtain ⟨a, ha, hrest⟩ := h.rows i a' ha'
    refine ⟨a, ha, hrest.same.id, hrest.same.grantId, hrest.same.instanceId, hrest.ended, fun hc => ?_⟩
    rcases hrest.phase with hp | ⟨-, hp | hp⟩
    · exact hp.symm.trans hc
    · rw [hp] at hc; cases hc
    · rw [hp] at hc; cases hc
  grants := h.grants
  kept := h.kept
  granted := h.granted
  nextAttempt := h.nextAttempt
  nextGrant := h.nextGrant

/-- An active row takes another phase, of an attempt that is not consumed. -/
theorem tame_update {i : Nat} {f : SessionTransferAttempt → SessionTransferAttempt}
    (hf : ∀ a, db.attempts.get? i = some a → (f a).id = a.id ∧ (f a).grantId = a.grantId ∧ (f a).instanceId = a.instanceId ∧
      a.phase.terminal = false ∧ (f a).phase ≠ .consumed) : Tame db (db.updateAttempt i f) := by
  have hrow : ∀ j, (db.updateAttempt i f).attempts.get? j = if j = i then (db.attempts.get? j).map f else db.attempts.get? j :=
    fun j => Table.get?_modify _ _ _ _
  refine ⟨fun j a' ha' => ?_, fun _ _ h => h, fun g x j a _ ha _ => ?_, fun _ _ _ => rfl, rfl, rfl⟩
  · rw [hrow] at ha'
    split at ha'
    · rename_i hji
      subst hji
      obtain ⟨a, ha, rfl⟩ := Option.map_eq_some_iff.1 ha'
      obtain ⟨hid, hg, hi, hactive, hnc⟩ := hf a ha
      exact ⟨a, ha, hid, hg, hi, fun hover => absurd hover (by simp [hactive]), fun hc => absurd hc hnc⟩
    · exact ⟨a', ha', rfl, rfl, rfl, fun _ => rfl, fun hc => hc⟩
  · rw [hrow, ha]
    split
    · exact ⟨f a, rfl⟩
    · exact ⟨a, rfl⟩

/-! ## Grants and attempts that are new -/

theorem Db.Sound.createGrant (hs : Db.Sound db) (hash : String → String) (instanceId token : String) (expiresAt : Nat) :
    Db.Sound (db.createGrant hash instanceId token expiresAt) := by
  have hget : ∀ g, (db.createGrant hash instanceId token expiresAt).grants.get? g = if g = db.nextGrant then
      some { id := db.nextGrant, instanceId, tokenHash := hash token, expiresAt } else db.grants.get? g :=
    fun g => Table.get?_put _ _ _ _
  -- the grant of an attempt is older than the new one
  have hold : ∀ i a, db.attempts.get? i = some a → (db.createGrant hash instanceId token expiresAt).grants.get? a.grantId =
      db.grants.get? a.grantId := by
    intro i a ha
    obtain ⟨x, hx, -⟩ := hs.granted i a ha
    have hlt := (hs.grantKeyed _ x hx).2
    rw [hget, if_neg (by omega)]
  refine ⟨hs.keyed, fun g x hx => ?_, fun i a ha => ?_, hs.single, fun i a x ha hx => ?_, fun i a x ha hx => ?_,
    fun g x hx hc => ?_, hs.once⟩
  · rw [hget] at hx
    split at hx
    · rename_i hg
      cases hx
      exact ⟨hg.symm, by simp only [hg, Db.createGrant]; omega⟩
    · obtain ⟨hid, hlt⟩ := hs.grantKeyed g x hx
      exact ⟨hid, Nat.lt_succ_of_lt hlt⟩
  · rw [hold i a ha]
    exact hs.granted i a ha
  · rw [hold i a ha] at hx
    exact hs.spent i a x ha hx
  · rw [hold i a ha] at hx
    exact hs.paid i a x ha hx
  · rw [hget] at hx
    split at hx
    · cases hx
      cases hc
    · exact hs.earned g x hx hc

/-- What a started attempt is. -/
theorem startAttempt_created {hash : String → String} {instanceId : String} {grantId : Nat} {token : String}
    {now leaseMs hardMs : Nat} {attempt : SessionTransferAttempt}
    (h : db.startAttempt hash instanceId grantId token now leaseMs hardMs = .created db' attempt) :
    ∃ grant, db.grants.get? grantId = some grant ∧ grant.instanceId = instanceId ∧ grant.consumedAt = none ∧
      db.getActiveByInstance instanceId = none ∧ attempt.id = db.nextAttempt ∧ attempt.grantId = grant.id ∧
      attempt.instanceId = instanceId ∧ attempt.phase = .queued ∧
      db' = { db with attempts := db.attempts.put db.nextAttempt attempt, nextAttempt := db.nextAttempt + 1 } := by
  unfold Db.startAttempt at h
  split at h
  · cases h
  · rename_i grant hgrant
    split at h
    · cases h
    · rename_i hvalid
      split at h
      · cases h
      · rename_i hfree
        cases h
        push Not at hvalid
        obtain ⟨hi, hc, -, -⟩ := hvalid
        exact ⟨grant, hgrant, hi, by simpa using hc, by simpa using hfree, rfl, rfl, rfl, rfl, rfl⟩

/-- No attempt of a process is active when none is found. -/
theorem not_active_of_none {instanceId : String} (h : db.getActiveByInstance instanceId = none) {i : Nat}
    {a : SessionTransferAttempt} (ha : db.attempts.get? i = some a) (hi : a.instanceId = instanceId) : a.phase.terminal = true := by
  unfold Db.getActiveByInstance at h
  have hnone := List.find?_eq_none.1 h a (Table.mem_values.2 ⟨i, ha⟩)
  simpa [hi] using hnone

theorem Db.Sound.startAttempt (hs : Db.Sound db) {hash : String → String} {instanceId : String} {grantId : Nat} {token : String}
    {now leaseMs hardMs : Nat} {attempt : SessionTransferAttempt}
    (h : db.startAttempt hash instanceId grantId token now leaseMs hardMs = .created db' attempt) : Db.Sound db' := by
  obtain ⟨grant, hgrant, hgi, hopen, hfree, hid, hag, hai, hphase, rfl⟩ := startAttempt_created h
  obtain ⟨hgid, -⟩ := hs.grantKeyed _ _ hgrant
  have hrow : ∀ j, (db.attempts.put db.nextAttempt attempt).get? j = if j = db.nextAttempt then some attempt else
      db.attempts.get? j := fun j => Table.get?_put _ _ _ _
  refine ⟨fun i a ha => ?_, hs.grantKeyed, fun i a ha => ?_, fun i j a b ha hb hta htb hinst => ?_, fun i a x ha hx hc => ?_,
    fun i a x ha hx hc => ?_, fun g x hx hc => ?_, fun i j a b ha hb hca hcb => ?_⟩
  · rw [hrow] at ha
    split at ha
    · rename_i hi
      cases ha
      exact ⟨hid.trans hi.symm, by simp only [hi]; omega⟩
    · obtain ⟨hai, hlt⟩ := hs.keyed i a ha
      exact ⟨hai, Nat.lt_succ_of_lt hlt⟩
  · rw [hrow] at ha
    split at ha
    · cases ha
      exact ⟨grant, by rw [hag, hgid]; exact hgrant, hgi.trans hai.symm⟩
    · exact hs.granted i a ha
  · rw [hrow] at ha hb
    split at ha <;> split at hb
    · omega
    · cases ha
      rw [not_active_of_none hfree hb (hinst.symm.trans hai)] at htb
      cases htb
    · cases hb
      rw [not_active_of_none hfree ha (hinst.trans hai)] at hta
      cases hta
    · exact hs.single i j a b ha hb hta htb hinst
  · rw [hrow] at ha
    split at ha
    · cases ha
      rw [hag, hgid, hgrant, Option.some.injEq] at hx
      subst hx
      rw [hopen] at hc
      cases hc
    · exact hs.spent i a x ha hx hc
  · rw [hrow] at ha
    split at ha
    · cases ha
      rw [hphase] at hc
      cases hc
    · exact hs.paid i a x ha hx hc
  · obtain ⟨i, a, ha, hg, hcons⟩ := hs.earned g x hx hc
    have hlt := (hs.keyed i a ha).2
    refine ⟨i, a, ?_, hg, hcons⟩
    rw [hrow, if_neg (by omega)]
    exact ha
  · rw [hrow] at ha hb
    split at ha
    · cases ha
      rw [hphase] at hca
      cases hca
    · split at hb
      · cases hb
        rw [hphase] at hcb
        cases hcb
      · exact hs.once i j a b ha hb hca hcb

/-! ## Acknowledgement -/

/-- What an acknowledgement does: it consumes an attempt and its grant, or nothing. -/
theorem acknowledge_cases (db : Db) (id now tombstoneMs : Nat) : db.acknowledge id now tombstoneMs = db ∨
    ∃ a, db.attempts.get? id = some a ∧ a.phase = .awaitingAck ∧
      db.acknowledge id now tombstoneMs = { db with
        attempts := db.attempts.modify id fun a => { a with phase := .consumed, completedAt := some now }
        grants := db.grants.modify a.grantId fun g =>
          if g.consumedAt = none then { g with consumedAt := some now, tombstoneUntil := some (now + tombstoneMs) } else g } := by
  unfold Db.acknowledge
  cases ha : db.attempts.get? id with
  | none => exact .inl rfl
  | some a =>
    dsimp only
    split
    · exact .inl rfl
    · rename_i h
      push Not at h
      exact .inr ⟨a, rfl, h.1, rfl⟩

theorem Db.Sound.acknowledge (hs : Db.Sound db) (id now tombstoneMs : Nat) : Db.Sound (db.acknowledge id now tombstoneMs) := by
  rcases acknowledge_cases db id now tombstoneMs with heq | ⟨a₀, ha₀, hawait, heq⟩
  · rw [heq]
    exact hs
  rw [heq]
  obtain ⟨x₀, hx₀, hxi₀⟩ := hs.granted id a₀ ha₀
  have hactive : a₀.phase.terminal = false := by rw [hawait]; rfl
  have hopen : x₀.consumedAt = none := by
    cases hc : x₀.consumedAt with
    | none => rfl
    | some at' =>
      have := hs.spent id a₀ x₀ ha₀ hx₀ (by rw [hc]; rfl)
      rw [hactive] at this
      cases this
  have hrow : ∀ j, (db.attempts.modify id fun a => { a with phase := .consumed, completedAt := some now }).get? j =
      if j = id then some { a₀ with phase := .consumed, completedAt := some now } else db.attempts.get? j := by
    intro j
    rw [Table.get?_modify]
    split
    · rename_i hj
      rw [hj, ha₀]
      rfl
    · rfl
  have hgrant : ∀ g, (db.grants.modify a₀.grantId fun g =>
      if g.consumedAt = none then { g with consumedAt := some now, tombstoneUntil := some (now + tombstoneMs) } else g).get? g =
      if g = a₀.grantId then some { x₀ with consumedAt := some now, tombstoneUntil := some (now + tombstoneMs) } else
        db.grants.get? g := by
    intro g
    rw [Table.get?_modify]
    split
    · rename_i hg
      rw [hg, hx₀, Option.map_some, if_pos hopen]
    · rfl
  -- another attempt of the grant is one of the process, so it is over and was not consumed
  have hother : ∀ j b, j ≠ id → db.attempts.get? j = some b → b.grantId = a₀.grantId →
      b.phase.terminal = true ∧ b.phase ≠ .consumed := by
    intro j b hj hb hg
    obtain ⟨y, hy, hyi⟩ := hs.granted j b hb
    rw [hg, hx₀, Option.some.injEq] at hy
    subst hy
    refine ⟨?_, fun hc => ?_⟩
    · by_contra hterm
      exact hj (hs.single j id b a₀ hb ha₀ (by simpa using hterm) hactive (hyi.symm.trans hxi₀))
    · have hpaid := hs.paid j b x₀ hb (hg ▸ hx₀) hc
      rw [hopen] at hpaid
      cases hpaid
  refine ⟨fun i a ha => ?_, fun g x hx => ?_, fun i a ha => ?_, fun i j a b ha hb hta htb hinst => ?_, fun i a x ha hx hc => ?_,
    fun i a x ha hx hc => ?_, fun g x hx hc => ?_, fun i j a b ha hb hca hcb hg => ?_⟩
  · rw [hrow] at ha
    split at ha
    · rename_i hi
      cases ha
      exact hi ▸ hs.keyed id a₀ ha₀
    · exact hs.keyed i a ha
  · rw [hgrant] at hx
    split at hx
    · rename_i hg
      cases hx
      rw [hg]
      exact hs.grantKeyed _ x₀ hx₀
    · exact hs.grantKeyed g x hx
  · rw [hgrant]
    rw [hrow] at ha
    split at ha
    · cases ha
      exact ⟨_, if_pos rfl, hxi₀⟩
    · obtain ⟨y, hy, hyi⟩ := hs.granted i a ha
      split
      · rename_i hg
        rw [hg, hx₀, Option.some.injEq] at hy
        subst hy
        exact ⟨_, rfl, hyi⟩
      · exact ⟨y, hy, hyi⟩
  · rw [hrow] at ha hb
    split at ha
    · cases ha
      cases hta
    · split at hb
      · cases hb
        cases htb
      · exact hs.single i j a b ha hb hta htb hinst
  · rw [hrow] at ha
    rw [hgrant] at hx
    split at ha
    · cases ha
      rfl
    · rename_i hi
      split at hx
      · rename_i hg
        exact (hother i a hi ha hg).1
      · exact hs.spent i a x ha hx hc
  · rw [hrow] at ha
    rw [hgrant] at hx
    split at hx
    · cases hx
      rfl
    · rename_i hg
      split at ha
      · cases ha
        exact absurd rfl hg
      · exact hs.paid i a x ha hx hc
  · rw [hgrant] at hx
    split at hx
    · rename_i hg
      exact ⟨id, _, (hrow id).trans (if_pos rfl), hg.symm, rfl⟩
    · obtain ⟨i, a, ha, hag, hcons⟩ := hs.earned g x hx hc
      have hi : i ≠ id := by
        rintro rfl
        rw [ha₀, Option.some.injEq] at ha
        subst ha
        rw [hawait] at hcons
        cases hcons
      exact ⟨i, a, (hrow i).trans ((if_neg hi).trans ha), hag, hcons⟩
  · rw [hrow] at ha hb
    split at ha <;> split at hb
    · omega
    · rename_i _ hj
      cases ha
      exact absurd hcb (hother j b hj hb hg.symm).2
    · rename_i hi _
      cases hb
      exact absurd hca (hother i a hi ha hg).2
    · exact hs.once i j a b ha hb hca hcb hg

end Leitwerk.Transfer
