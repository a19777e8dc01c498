import Leitwerk.Transfer.Reconcile
/-!
# The life cycle of a session transfer

An attempt passes its phases in their order and ends once. Its archive is handed
out once, it waits for an acknowledgement when the whole archive was produced, and
its grant is consumed with it. `LifeStep` says so of a step and `LifeCycle` of a
run. This holds as long as `reconcile` launches no attempt that this server run
launched: the server takes requests before it runs `reconcile`, which resets what
was started meanwhile.
-/

namespace Leitwerk.Transfer

/-- An attempt keeps its phase, or one that is not over takes a later phase. -/
structure Advances (a a' : SessionTransferAttempt) : Prop where
  ids : SameIds a a'
  phase : a'.phase = a.phase ∨ a.phase.terminal = false ∧ a.phase.rank < a'.phase.rank

/-- `reconcile` launches an attempt of an earlier server run. -/
structure Requeued (s : Service) (e : Event) (a a' : SessionTransferAttempt) : Prop where
  restarted : Restarted a a'
  event : ∃ now, e = .reconcile now
  first : s.reconciled = false
  unlaunched : ∀ k r, s.launched.get? k = some r → r.attemptId ≠ a.id

structure LifeStep (env : Env) (s : Service) (e : Event) (t : Service) : Prop where
  /-- Phases go forward, and an attempt that is over stays as it is. -/
  rows : ∀ i a', t.row i = some a' → (∃ a, s.row i = some a ∧ (Advances a a' ∨ Requeued s e a a')) ∨
    s.row i = none ∧ i = s.db.nextAttempt ∧ a'.phase = .waitingForExecutionChain
  ids : s.db.nextAttempt ≤ t.db.nextAttempt
  awaiting : ∀ i a', t.row i = some a' → a'.phase = .awaitingAck →
    (∃ a, s.row i = some a ∧ a.phase = .awaitingAck ∧ a'.compressedBytes = a.compressedBytes ∧ a'.streamSha256 = a.streamSha256) ∨
      Produced env.digest s i a'
  consumed : ∀ i a', t.row i = some a' → a'.phase = .consumed → (∃ a, s.row i = some a ∧ a.phase = .consumed) ∨
    ∃ auth now a, e = .acknowledge auth now ∧ auth.attemptId = i ∧ s.row i = some a ∧ a.phase = .awaitingAck ∧
      now < a.leaseUntil ∧ now < a.hardDeadline
  grants : ∀ g x x' time, s.db.grants.get? g = some x → t.db.grants.get? g = some x' → x.consumedAt = some time →
    x'.consumedAt = some time

/-- An event hands the archive of a prepared attempt out. -/
def HandsOut (s : Service) (i : Nat) : Prop :=
  ∃ a k r, s.row i = some a ∧ a.phase = .readyToStream ∧ s.runtimes.get? i = some k ∧ s.launched.get? k = some r ∧
    r.prepared.isSome

/-- The life cycle of the attempts of a run, and of each step from where it ends that meets `ok`. -/
structure LifeCycle (env : Env) (ok : Service → Event → Prop) (h : Runs.Hist Event Nat) (s : Service) : Prop where
  single : ∀ i j a b, s.row i = some a → s.row j = some b → a.phase.terminal = false → b.phase.terminal = false →
    a.instanceId = b.instanceId → i = j
  grants : ∀ g x, s.db.grants.get? g = some x →
    (x.consumedAt.isSome ↔ ∃ i a, s.row i = some a ∧ a.grantId = g ∧ a.phase = .consumed)
  once : ∀ i j a b, s.row i = some a → s.row j = some b → a.phase = .consumed → b.phase = .consumed → a.grantId = b.grantId → i = j
  handedOut : (Runs.emitted h).Nodup
  steps : ∀ e, ok s e → LifeStep env s e (next env s e) ∧ ∀ i ∈ outputs env s e, HandsOut s i

/-- `reconcile` finds an attempt that this server run launched and that does not stream yet. -/
def relaunches (s : Service) : Event → Bool
  | .reconcile _ => !s.reconciled && s.db.listActive.any fun a =>
      a.phase != .streaming && a.phase != .awaitingAck && s.launched.values.any (·.attemptId == a.id)
  | _ => false

/-! ## Steps -/

structure Safe (s : Service) : Prop where
  db : s.db.Sound
  chains : Chained s

variable {env : Env} {s t u : Service} {e : Event} {a a' b : SessionTransferAttempt}

theorem rank_of_active {p q : Phase} (hp : p.terminal = false) (hq : q.terminal = true) : p.rank < q.rank := by
  have hlt : p.rank < 8 := by cases p <;> simp_all [Phase.terminal, Phase.rank]
  have heq : q.rank = 8 := by cases q <;> simp_all [Phase.terminal, Phase.rank]
  omega

theorem Advances.refl (a : SessionTransferAttempt) : Advances a a := ⟨⟨rfl, rfl, rfl⟩, .inl rfl⟩

theorem Advances.trans (h : Advances a b) (h' : Advances b a') : Advances a a' := by
  refine ⟨h.ids.trans h'.ids, ?_⟩
  rcases h'.phase with hp' | ⟨hactive', hrank'⟩
  · rw [hp']
    exact h.phase
  · rcases h.phase with hp | ⟨hactive, hrank⟩
    · rw [hp] at hactive' hrank'
      exact .inr ⟨hactive', hrank'⟩
    · exact .inr ⟨hactive, Nat.lt_trans hrank hrank'⟩

theorem Rests.advances (h : Rests a a') : Advances a a' := by
  refine ⟨h.same.ids, ?_⟩
  rcases h.phase with hp | ⟨hactive, hended⟩
  · exact .inl hp
  · refine .inr ⟨hactive, rank_of_active hactive ?_⟩
    rcases hended with hp | hp <;> rw [hp] <;> rfl

theorem Rises.advances {digest : List UInt8 → String} {i : Nat} (h : Rises digest s i a a') : Advances a a' :=
  ⟨h.ids, .inr ⟨h.active, h.rank⟩⟩

theorem Rests.awaiting (h : Rests a a') (ha' : a'.phase = .awaitingAck) : a.phase = .awaitingAck :=
  (h.active (by rw [ha']; rfl)).symm.trans ha'

theorem Rests.consumed (h : Rests a a') (ha' : a'.phase = .consumed) : a.phase = .consumed := by
  rcases h.phase with hp | ⟨-, hp | hp⟩
  · exact hp.symm.trans ha'
  · rw [hp] at ha'
    cases ha'
  · rw [hp] at ha'
    cases ha'

theorem lifeStep_works (h : Works env.digest s t) : LifeStep env s e t := by
  -- a chain acts, and then the rest is quiet
  have hparts : ∃ u, (∀ i b, u.row i = some b → s.row i = some b ∨ ∃ a, s.row i = some a ∧ Rises env.digest s i a b) ∧
      Quiet u t ∧ u.db.grants = s.db.grants ∧ u.db.nextAttempt = s.db.nextAttempt := by
    rcases h with hq | ⟨u, k, r, r', hacts, hq, -⟩
    · exact ⟨s, fun _ _ => .inl, hq, rfl, rfl⟩
    · exact ⟨u, fun _ _ => hacts.rows, hq, hacts.grants, hacts.nextAttempt⟩
  obtain ⟨u, hrows, hq, hgrants, hnext⟩ := hparts
  refine ⟨fun i a' ha' => ?_, Nat.le_of_eq (hq.nextAttempt.trans hnext).symm, fun i a' ha' hawait => ?_,
    fun i a' ha' hcons => ?_, fun g x x' time hx hx' hc => ?_⟩
  · obtain ⟨b, hb, hrest⟩ := hq.rows i a' ha'
    rcases hrows i b hb with ha | ⟨a, ha, hrise⟩
    · exact .inl ⟨b, ha, .inl hrest.advances⟩
    · exact .inl ⟨a, ha, .inl (hrise.advances.trans hrest.advances)⟩
  · obtain ⟨b, hb, hrest⟩ := hq.rows i a' ha'
    have hb' := hrest.awaiting hawait
    rcases hrows i b hb with ha | ⟨a, -, hrise⟩
    · exact .inl ⟨b, ha, hb', hrest.same.compressedBytes, hrest.same.streamSha256⟩
    · obtain ⟨k, r, prepared, stream, hr, hid, hprep, hst, hall, hbytes, hsha⟩ := hrise.produced hb'
      exact .inr ⟨k, r, prepared, stream, hr, hid, hprep, hst, hall, hrest.same.compressedBytes.trans hbytes,
        hrest.same.streamSha256.trans hsha⟩
  · obtain ⟨b, hb, hrest⟩ := hq.rows i a' ha'
    have hb' := hrest.consumed hcons
    rcases hrows i b hb with ha | ⟨a, -, hrise⟩
    · exact .inl ⟨b, ha, hb'⟩
    · have hstill := hrise.still
      rw [hb'] at hstill
      cases hstill
  · have hx₀ := hq.grants g x' hx'
    rw [hgrants, hx, Option.some.injEq] at hx₀
    exact hx₀ ▸ hc

/-- A step that works on a safe service. -/
theorem Safe.works (hs : Safe s) (h : Works env.digest s t) : Safe t ∧ LifeStep env s e t :=
  ⟨⟨h.sound hs.db, h.chained hs.chains⟩, lifeStep_works h⟩

theorem Safe.quiet (hs : Safe s) (h : Quiet s t) : Safe t ∧ LifeStep env s e t := hs.works (.inl h)

theorem Safe.createGrant (hs : Safe s) (hash : String → String) (instanceId token : String) (expiresAt : Nat) :
    Safe { s with db := s.db.createGrant hash instanceId token expiresAt } ∧
      LifeStep env s e { s with db := s.db.createGrant hash instanceId token expiresAt } := by
  refine ⟨⟨hs.db.createGrant _ _ _ _, ⟨⟨hs.chains.launched, hs.chains.distinct, hs.chains.found⟩, hs.chains.fits⟩⟩,
    fun i a' ha' => .inl ⟨a', ha', .inl (.refl a')⟩, Nat.le_refl _, fun i a' ha' hp => .inl ⟨a', ha', hp, rfl, rfl⟩,
    fun i a' ha' hp => .inl ⟨a', ha', hp⟩, fun g x x' time hx hx' hc => ?_⟩
  have hlt := (hs.db.grantKeyed g x hx).2
  have hx₀ : (s.db.grants.put s.db.nextGrant _).get? g = some x' := hx'
  rw [Table.get?_put, if_neg (Nat.ne_of_lt hlt), hx, Option.some.injEq] at hx₀
  exact hx₀ ▸ hc

theorem Safe.startAttempt (hs : Safe s) (hash : String → String) (instanceId : String) (grantId : Nat) (token : String)
    (deletionPending : Bool) (now : Nat) : Safe (s.startAttempt hash instanceId grantId token deletionPending now) ∧
      LifeStep env s e (s.startAttempt hash instanceId grantId token deletionPending now) := by
  unfold Service.startAttempt
  split
  · exact hs.quiet (.refl s)
  split
  · rename_i db attempt hstart
    have hdb := hs.db.startAttempt hstart
    obtain ⟨grant, -, -, -, -, hid, -, -, hphase, rfl⟩ := startAttempt_created hstart
    have hother : ∀ j, j ≠ attempt.id → (s.db.attempts.put s.db.nextAttempt attempt).get? j = s.row j := by
      intro j hj
      rw [Table.get?_put, if_neg (hid ▸ hj)]
      rfl
    have hfree : ∀ k r, s.launched.get? k = some r → r.attemptId ≠ attempt.id := by
      intro k r hr
      rw [hid]
      exact Nat.ne_of_lt (hs.chains.launched k r hr).2
    let db' : Db := { s.db with attempts := s.db.attempts.put s.db.nextAttempt attempt, nextAttempt := s.db.nextAttempt + 1 }
    have hchained : Chained ({ s with db := db' }.launch attempt) :=
      Chained.launch db' hs.chains hfree hother (Nat.le_succ _) (by rw [hid]; exact Nat.lt_succ_self _)
    have htame : Tame db' (updatePhase db' attempt.id .waitingForExecutionChain) :=
      tame_updatePhase { s with db := db' } attempt.id nofun
    have hself : db'.attempts.get? attempt.id = some attempt := by
      show (s.db.attempts.put s.db.nextAttempt attempt).get? _ = _
      rw [Table.get?_put, if_pos hid]
    have hown : ({ s with db := db' }.launch attempt).row attempt.id = some { attempt with phase := .waitingForExecutionChain } :=
      updatePhase_set hself (by rw [hphase]; rfl) _
    -- the other rows are as they were
    have hrows : ∀ i a', ({ s with db := db' }.launch attempt).row i = some a' → i ≠ attempt.id → s.row i = some a' :=
      fun i a' ha' hi => (hother i hi).symm.trans ((updatePhase_other db' hi _).symm.trans ha')
    have hnew : ∀ i a', ({ s with db := db' }.launch attempt).row i = some a' → s.row i = some a' ∨
        i = s.db.nextAttempt ∧ s.row i = none ∧ a'.phase = .waitingForExecutionChain := by
      intro i a' ha'
      by_cases hi : i = attempt.id
      · subst hi
        rw [hown] at ha'
        cases ha'
        refine .inr ⟨hid, ?_, rfl⟩
        by_contra hsome
        obtain ⟨b, hb⟩ := Option.ne_none_iff_exists'.1 hsome
        have hlt := (hs.db.keyed _ b hb).2
        omega
      · exact .inl (hrows i a' ha' hi)
    refine ⟨⟨hdb.tame htame, hchained⟩, fun i a' ha' => ?_, ?_, fun i a' ha' hp => ?_, fun i a' ha' hp => ?_,
      fun g x x' time hx hx' hc => ?_⟩
    · rcases hnew i a' ha' with ha | ⟨hi, hnone, hp⟩
      · exact .inl ⟨a', ha, .inl (.refl a')⟩
      · exact .inr ⟨hnone, hi, hp⟩
    · exact Nat.le_trans (Nat.le_succ _) (Nat.le_of_eq htame.nextAttempt.symm)
    · rcases hnew i a' ha' with ha | ⟨-, -, hwait⟩
      · exact .inl ⟨a', ha, hp, rfl, rfl⟩
      · rw [hwait] at hp
        cases hp
    · rcases hnew i a' ha' with ha | ⟨-, -, hwait⟩
      · exact .inl ⟨a', ha, hp⟩
      · rw [hwait] at hp
        cases hp
    · have hx₀ : s.db.grants.get? g = some x' := htame.grants g x' hx'
      rw [hx, Option.some.injEq] at hx₀
      exact hx₀ ▸ hc
  · exact hs.quiet (.refl s)
  · exact hs.quiet (.refl s)

theorem Safe.acknowledge (hs : Safe s) (hash : String → String) (auth : Db.AttemptAuth) (now : Nat) :
    Safe (s.acknowledge hash auth now) ∧ LifeStep env s (.acknowledge auth now) (s.acknowledge hash auth now) := by
  unfold Service.acknowledge
  split
  · exact hs.quiet (.refl s)
  rename_i attempt hver
  split
  · exact hs.quiet (.refl s)
  split
  · exact hs.quiet (quiet_cancelIfExpired s attempt now)
  rename_i hlive
  obtain ⟨hrow, hid⟩ := verifyAttempt_row hs.db hver
  have hsound := hs.db.acknowledge attempt.id now consumedTombstoneMs
  rcases acknowledge_cases s.db attempt.id now consumedTombstoneMs with heq | ⟨a, ha, hawait, heq⟩
  · rw [heq]
    exact hs.quiet (.refl s)
  · rw [heq] at hsound ⊢
    rw [hid, hrow, Option.some.injEq] at ha
    subst ha
    -- the attempt is consumed and the others stay
    have hnew : ∀ i a', (s.db.attempts.modify attempt.id fun a => { a with phase := .consumed, completedAt := some now }).get? i =
        some a' → (i ≠ attempt.id ∧ s.row i = some a') ∨ i = attempt.id ∧ s.row i = some attempt ∧
          a' = { attempt with phase := .consumed, completedAt := some now } := by
      intro i a' ha'
      rw [Table.get?_modify] at ha'
      split at ha'
      · rename_i hi
        rw [hi, hid, hrow] at ha'
        cases ha'
        exact .inr ⟨hi, by rw [hi, hid]; exact hrow, rfl⟩
      · rename_i hi
        exact .inl ⟨hi, ha'⟩
    have hdeadline : now < attempt.leaseUntil ∧ now < attempt.hardDeadline := by
      unfold Service.deadlineCode at hlive
      split at hlive
      · exact absurd rfl hlive
      · split at hlive
        · exact absurd rfl hlive
        · omega
    refine ⟨⟨hsound, ⟨hs.chains.launched, hs.chains.distinct, hs.chains.found⟩, fun k r a' hr ha' hactive => ?_⟩,
      fun i a' ha' => ?_, Nat.le_refl _, fun i a' ha' hp => ?_, fun i a' ha' hp => ?_, fun g x x' time hx hx' hc => ?_⟩
    · rcases hnew _ a' ha' with ⟨-, ha⟩ | ⟨-, -, rfl⟩
      · exact hs.chains.fits k r a' hr ha hactive
      · cases hactive
    · rcases hnew i a' ha' with ⟨-, ha⟩ | ⟨-, ha, rfl⟩
      · exact .inl ⟨a', ha, .inl (.refl a')⟩
      · exact .inl ⟨attempt, ha, .inl ⟨⟨rfl, rfl, rfl⟩, .inr ⟨by rw [hawait]; rfl, rank_of_active (by rw [hawait]; rfl) rfl⟩⟩⟩
    · rcases hnew i a' ha' with ⟨-, ha⟩ | ⟨-, ha, rfl⟩
      · exact .inl ⟨a', ha, hp, rfl, rfl⟩
      · cases hp
    · rcases hnew i a' ha' with ⟨-, ha⟩ | ⟨hi, ha, rfl⟩
      · exact .inl ⟨a', ha, hp⟩
      · exact .inr ⟨auth, now, attempt, rfl, hid.symm.trans hi.symm, ha, hawait, hdeadline⟩
    · have hx₀ : (s.db.grants.modify attempt.grantId _).get? g = some x' := hx'
      rw [Table.get?_modify, hx] at hx₀
      split at hx₀
      · rw [Option.map_some, if_neg (by rw [hc]; simp), Option.some.injEq] at hx₀
        exact hx₀ ▸ hc
      · cases hx₀
        exact hc

/-- A restart loses what the server run held. -/
theorem Safe.restart (hs : Safe s) : Safe s.restart ∧ LifeStep env s .restart s.restart := by
  refine ⟨⟨hs.db, chained_db s.db⟩, fun i a' ha' => .inl ⟨a', ha', .inl (.refl a')⟩, Nat.le_refl _,
    fun i a' ha' hp => .inl ⟨a', ha', hp, rfl, rfl⟩, fun i a' ha' hp => .inl ⟨a', ha', hp⟩, fun g x x' time hx hx' hc => ?_⟩
  have hx₀ : s.db.grants.get? g = some x' := hx'
  rw [hx, Option.some.injEq] at hx₀
  exact hx₀ ▸ hc

theorem unlaunched_of_relaunches {now : Nat} (h : relaunches s (.reconcile now) = false) (hrec : s.reconciled = false)
    (ha : a ∈ s.db.listActive) (hstream : a.phase ≠ .streaming) (hawait : a.phase ≠ .awaitingAck) (k : Nat) (r : AttemptRuntime)
    (hr : s.launched.get? k = some r) : r.attemptId ≠ a.id := by
  intro hid
  unfold relaunches at h
  rw [hrec, Bool.not_false, Bool.true_and, List.any_eq_false] at h
  refine h a ha ?_
  simp only [Bool.and_eq_true, bne_iff_ne]
  exact ⟨⟨hstream, hawait⟩, List.any_eq_true.2 ⟨r, Table.mem_values.2 ⟨k, hr⟩, by simpa using hid⟩⟩

theorem Safe.reconcile (hs : Safe s) {now : Nat} (hok : relaunches s (.reconcile now) = false) :
    Safe (s.reconcile now) ∧ LifeStep env s (.reconcile now) (s.reconcile now) := by
  unfold Service.reconcile
  split
  · exact hs.quiet (.refl s)
  rename_i hrec
  have hfirst : s.reconciled = false := by simpa using hrec
  have hleft : ∀ a ∈ s.db.listActive, Left s a := fun a ha =>
    ⟨(mem_listActive hs.db ha).1, (mem_listActive hs.db ha).2, unlaunched_of_relaunches hok hfirst ha⟩
  obtain ⟨hdb, hchained, hre⟩ := reconcile_loop now s.db.listActive s hs.db hs.chains (nodup_listActive hs.db) hleft
  generalize s.db.listActive.foldl (fun s a => s.reconcileAttempt now a) s = u at hdb hchained hre ⊢
  have hq := quiet_sweep u now
  have hchained' := hchained.quiet hq
  have hrows : ∀ i a', (u.sweep now).row i = some a' → ∃ a, s.row i = some a ∧ (Rests a a' ∨ Restarted a a') :=
    fun _ _ => hre.quiet_rows hq
  refine ⟨⟨hdb.tame hq.tame, ⟨⟨hchained'.launched, hchained'.distinct, hchained'.found⟩, hchained'.fits⟩⟩, fun i a' ha' => ?_,
    Nat.le_of_eq (hq.nextAttempt.trans hre.nextAttempt).symm, fun i a' ha' hp => ?_, fun i a' ha' hp => ?_,
    fun g x x' time hx hx' hc => ?_⟩
  · obtain ⟨a, ha, hrest | hre⟩ := hrows i a' ha'
    · exact .inl ⟨a, ha, .inl hrest.advances⟩
    · exact .inl ⟨a, ha, .inr ⟨hre, ⟨now, rfl⟩, hfirst, unlaunched_of_relaunches hok hfirst (listActive_of_row ha hre.active)
        hre.unstreamed.1 hre.unstreamed.2⟩⟩
  · obtain ⟨a, ha, hrest | hre⟩ := hrows i a' ha'
    · exact .inl ⟨a, ha, hrest.awaiting hp, hrest.same.compressedBytes, hrest.same.streamSha256⟩
    · rw [hre.phase] at hp
      cases hp
  · obtain ⟨a, ha, hrest | hre⟩ := hrows i a' ha'
    · exact .inl ⟨a, ha, hrest.consumed hp⟩
    · rw [hre.phase] at hp
      cases hp
  · have hx₀ := hq.grants g x' hx'
    rw [hre.grants, hx, Option.some.injEq] at hx₀
    exact hx₀ ▸ hc

theorem Safe.next (hs : Safe s) (hok : relaunches s e = false) : Safe (next env s e) ∧ LifeStep env s e (next env s e) := by
  cases e with
  | createGrant instanceId token now => exact hs.createGrant _ _ _ _
  | startAttempt instanceId grantId token deletionPending now => exact hs.startAttempt _ _ _ _ _ _
  | chain launch result now => exact hs.works (works_exportStep hs.chains launch result now)
  | heartbeat auth now => exact hs.quiet (quiet_heartbeat s _ auth now)
  | openStream auth error now => exact hs.works (works_openStream hs.chains hs.db _ auth error now)
  | stream launch e now => exact hs.works (works_streamStep hs.chains env.maxCompressedBytes launch e now)
  | cancel auth code now => exact hs.quiet (quiet_cancel s _ auth now code)
  | cancelForWeb instanceId attemptId now => exact hs.quiet (quiet_cancelForWeb s now instanceId attemptId)
  | acknowledge auth now => exact hs.acknowledge _ auth now
  | sweep now => exact hs.quiet (quiet_sweep s now)
  | revokeProcess instanceId now => exact hs.quiet (quiet_revokeProcess s instanceId now)
  | stop => exact hs.quiet (quiet_stop s)
  | restart => exact hs.restart
  | reconcile now => exact hs.reconcile hok

/-! ## Runs -/

theorem outputs_handed (hs : Safe s) {i : Nat} (hi : i ∈ outputs env s e) :
    HandsOut s i ∧ ∃ a', (next env s e).row i = some a' ∧ a'.phase = .streaming := by
  cases e with
  | openStream auth error now =>
    replace hi : i ∈ if (s.openStream env.hashOpaqueToken auth error now).2 then [auth.attemptId] else [] := hi
    split at hi
    · rename_i hopen
      rw [List.mem_singleton] at hi
      subst hi
      obtain ⟨a, k, r, ha, hready, hk, hr, hprep, hstreaming⟩ := openStream_handed hs.db hopen
      exact ⟨⟨a, k, r, ha, hready, hk, hr, hprep⟩, hstreaming⟩
    · cases hi
  | _ => cases hi

/-- An attempt whose archive was handed out is past being ready. -/
def Past (s : Service) (i : Nat) : Prop := i < s.db.nextAttempt ∧ ∀ a, s.row i = some a → Phase.rank .readyToStream < a.phase.rank

theorem Past.step {i : Nat} (h : Past s i) (hstep : LifeStep env s e t) : Past t i := by
  refine ⟨Nat.lt_of_lt_of_le h.1 hstep.ids, fun a' ha' => ?_⟩
  rcases hstep.rows i a' ha' with ⟨a, ha, hadv | hre⟩ | ⟨-, hi, -⟩
  · have hrank := h.2 a ha
    rcases hadv.phase with hp | ⟨-, hlt⟩
    · rw [hp]
      exact hrank
    · exact Nat.lt_trans hrank hlt
  · -- one that is started again was not ready to stream
    have hrank := h.2 a ha
    have hactive := hre.restarted.active
    obtain ⟨hstream, hawait⟩ := hre.restarted.unstreamed
    generalize a.phase = p at hrank hactive hstream hawait
    cases p <;> simp_all [Phase.rank, Phase.terminal]
  · exact absurd h.1 (by omega)

/-- The archive of an attempt is handed out once. -/
theorem nodup_outputs (s : Service) (e : Event) : (outputs env s e).Nodup := by
  unfold outputs
  split
  · split
    · exact List.nodup_singleton _
    · exact List.nodup_nil
  · exact List.nodup_nil

structure RunInv (h : Runs.Hist Event Nat) (s : Service) : Prop where
  safe : Safe s
  past : ∀ i ∈ Runs.emitted h, Past s i
  nodup : (Runs.emitted h).Nodup

theorem RunInv.step {h : Runs.Hist Event Nat} (hi : RunInv h s) (hok : relaunches s e = false) :
    RunInv (h ++ [(e, outputs env s e)]) (next env s e) := by
  have hstepped : Safe (next env s e) ∧ LifeStep env s e (next env s e) := hi.safe.next hok
  obtain ⟨hsafe, hstep⟩ := hstepped
  refine ⟨hsafe, fun i hmem => ?_, ?_⟩
  · rw [Runs.emitted_snoc, List.mem_append] at hmem
    rcases hmem with hold | hnew
    · exact (hi.past i hold).step hstep
    · obtain ⟨-, a', ha', hp⟩ := outputs_handed hi.safe hnew
      refine ⟨(hsafe.db.keyed i a' ha').2, fun b hb => ?_⟩
      rw [ha', Option.some.injEq] at hb
      rw [← hb, hp]
      decide
  · rw [Runs.emitted_snoc, List.nodup_append']
    refine ⟨hi.nodup, nodup_outputs s e, fun i hold hnew => ?_⟩
    obtain ⟨⟨a, k, r, ha, hready, -⟩, -⟩ := outputs_handed hi.safe hnew
    have hrank := (hi.past i hold).2 a ha
    rw [hready] at hrank
    exact absurd hrank (Nat.lt_irrefl _)

theorem one_way_life_cycle (env : Env) {h : Runs.Hist Event Nat} {s : Service}
    (hr : Runs.Run (Runs.Guard (Step env) fun s e => relaunches s e = false) {} h s) :
    LifeCycle env (fun s e => relaunches s e = false) h s := by
  have hinv : RunInv h s := by
    refine hr.hist RunInv ⟨⟨.empty, chained_db {}⟩, nofun, List.nodup_nil⟩ fun h a e os b hi hstep => ?_
    obtain ⟨⟨rfl, rfl⟩, hok⟩ := hstep
    exact hi.step hok
  refine ⟨hinv.safe.db.single, fun g x hx => ⟨hinv.safe.db.earned g x hx, ?_⟩, hinv.safe.db.once, hinv.nodup,
    fun e hok => ⟨(hinv.safe.next hok).2, fun i hi => (outputs_handed hinv.safe hi).1⟩⟩
  rintro ⟨i, a, ha, hg, hc⟩
  subst hg
  exact hinv.safe.db.paid i a x ha hx hc

/-! ## A transfer, and one that is started while the server starts -/

section Started

def plainEnv : Env := { hashOpaqueToken := fun token => token, digest := fun _ => "sha", maxCompressedBytes := 8 }

def client : Db.AttemptAuth := { instanceId := "p", grantId := 0, attemptId := 0, token := "t" }

/-- A client starts an attempt whose process is stable. -/
def startedEvents : List Event := [.createGrant "p" "t" 0, .startAttempt "p" 0 "t" false 1, .chain 0 (.reserve true true) 2]

/-- The archive is prepared, streamed and acknowledged, after another server run took the first one's attempt over. -/
def transferEvents : List Event := startedEvents ++ [.restart, .reconcile 3, .chain 0 (.reserve true true) 4, .chain 0 .resume 5,
  .chain 0 (.stopped none false) 6, .chain 0 (.manifest none) 7,
  .chain 0 (.prepared (.ok { entriesTotal := 1, logicalBytesTotal := 2, archive := [[1], [2]] })) 8, .chain 0 .handle 9,
  .openStream client none 10, .stream 0 .chunk 11, .stream 0 .chunk 12, .stream 0 .flush 13, .stream 0 .close 14,
  .acknowledge client 15]

theorem one_way_life_cycle_transfer :
    (((transferEvents.foldl (next plainEnv) {}).row 0).map fun a => (a.phase, a.compressedBytes)) = some (.consumed, some 2) ∧
      LifeCycle plainEnv (fun s e => relaunches s e = false) (Runs.play (next plainEnv) (outputs plainEnv) {} transferEvents)
        (transferEvents.foldl (next plainEnv) {}) :=
  ⟨by decide, one_way_life_cycle plainEnv
    ((show Runs.Run (Runs.Guard (Step plainEnv) fun s e => (!relaunches s e) = true) {} _ _ from
      Runs.run_guarded (next plainEnv) (outputs plainEnv) (fun _ _ => ⟨rfl, rfl⟩) (by decide)).mono
        fun _ _ _ _ h => ⟨h.1, by simpa using h.2⟩)⟩

/-- The attempt is stopping its worker when `reconcile` puts it back to wait for the execution chain. -/
theorem reconcile_regresses :
    ¬ ∀ env h s, Runs.Run (Step env) {} h s → LifeCycle env (fun _ _ => True) h s := by
  intro hall
  have hrun : Runs.Run (Step plainEnv) {} _ (startedEvents.foldl (next plainEnv) {}) :=
    Runs.run_play (next plainEnv) (outputs plainEnv) (fun _ _ => ⟨rfl, rfl⟩) {} startedEvents
  have hstep := ((hall _ _ _ hrun).steps (.reconcile 3) trivial).1
  have hbefore : ((startedEvents.foldl (next plainEnv) {}).row 0).map (fun a => (a.id, a.phase)) = some (0, .stoppingWorker) := by
    decide
  have hafter : ((next plainEnv (startedEvents.foldl (next plainEnv) {}) (.reconcile 3)).row 0).map (·.phase) =
      some .waitingForExecutionChain := by decide
  have hlaunched : ((startedEvents.foldl (next plainEnv) {}).launched.get? 0).map (·.attemptId) = some 0 := by decide
  obtain ⟨a, ha, hpair⟩ := Option.map_eq_some_iff.1 hbefore
  obtain ⟨haid, hp⟩ := Prod.mk.inj hpair
  obtain ⟨a', ha', hp'⟩ := Option.map_eq_some_iff.1 hafter
  obtain ⟨r, hr, hid⟩ := Option.map_eq_some_iff.1 hlaunched
  rcases hstep.rows 0 a' ha' with ⟨b, hb, hadv | hre⟩ | ⟨hnone, -, -⟩
  · rw [ha, Option.some.injEq] at hb
    subst hb
    rcases hadv.phase with heq | ⟨-, hlt⟩
    · rw [hp, hp'] at heq
      cases heq
    · rw [hp, hp'] at hlt
      exact absurd hlt (by decide)
  · rw [ha, Option.some.injEq] at hb
    subst hb
    exact hre.unlaunched 0 r hr (hid.trans haid.symm)
  · rw [ha] at hnone
    cases hnone

end Started

end Leitwerk.Transfer
