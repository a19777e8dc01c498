import Leitwerk.Transfer.Working
/-!
# A server run takes over the attempts of the last

`reconcile` goes through the attempts that are not over. It fails those that
streamed, keeps those that wait for their acknowledgement and launches the others
again. When none of them was launched in this server run, each still has one
chain afterwards.
-/

namespace Leitwerk.Transfer

variable {s t u : Service} {a a' b : SessionTransferAttempt} {db' : Db}

/-! ## Launching -/

theorem tame_updatePhase (s : Service) (i : Nat) {q : Phase} (hq : q ≠ .consumed) : Tame s.db (updatePhase s.db i q) := by
  rcases updatePhase_cases s i q fun a => a with ⟨hsame, -⟩ | ⟨a, ha, hactive, hset⟩
  · rw [hsame]
    exact (Quiet.refl s).tame
  · rw [hset]
    refine tame_update fun b hb => ?_
    unfold Service.row at ha
    rw [ha, Option.some.injEq] at hb
    subst hb
    exact ⟨rfl, rfl, rfl, hactive, hq⟩

theorem updatePhase_other (db : Db) {i j : Nat} (h : j ≠ i) (q : Phase) :
    (updatePhase db i q).attempts.get? j = db.attempts.get? j := by
  unfold updatePhase
  split
  · rfl
  · split
    · rfl
    · exact Table.get?_modify_ne _ _ h

theorem updatePhase_own (db : Db) (i : Nat) (q : Phase) (h : (updatePhase db i q).attempts.get? i = some a')
    (hactive : a'.phase.terminal = false) : a'.phase = q := by
  unfold updatePhase at h
  split at h
  · rename_i hnone
    rw [hnone] at h
    cases h
  · rename_i a ha
    split at h
    · rename_i hover
      rw [ha, Option.some.injEq] at h
      rw [← h, hover] at hactive
      cases hactive
    · unfold Db.updateAttempt at h
      dsimp only at h
      rw [Table.get?_modify_self, ha, Option.map_some, Option.some.injEq] at h
      rw [← h]

theorem updatePhase_set {db : Db} {i : Nat} (ha : db.attempts.get? i = some a) (hactive : a.phase.terminal = false) (q : Phase) :
    (updatePhase db i q).attempts.get? i = some { a with phase := q } := by
  unfold updatePhase
  rw [ha]
  dsimp only
  rw [if_neg (by rw [hactive]; decide)]
  show (Table.modify _ _ _).get? _ = _
  rw [Table.get?_modify_self, ha]
  rfl

/-- An attempt that has no chain in this server run is launched. -/
theorem Chained.launch (db' : Db) (hs : Chained s) (hfree : ∀ k r, s.launched.get? k = some r → r.attemptId ≠ a.id)
    (hrows : ∀ j, j ≠ a.id → db'.attempts.get? j = s.row j) (hnext : s.db.nextAttempt ≤ db'.nextAttempt)
    (hlt : a.id < db'.nextAttempt) : Chained ({ s with db := db' }.launch a) := by
  have htame : Tame db' (updatePhase db' a.id .waitingForExecutionChain) := tame_updatePhase { s with db := db' } a.id (by decide)
  have hn : ({ s with db := db' }.launch a).db.nextAttempt = db'.nextAttempt := htame.nextAttempt
  have hl : ∀ j, ({ s with db := db' }.launch a).launched.get? j = if j = s.nextLaunch then
      some { attemptId := a.id, instanceId := a.instanceId } else s.launched.get? j := fun j => Table.get?_put _ _ _ _
  have hold : ∀ j r, s.launched.get? j = some r → j ≠ s.nextLaunch := fun j r hr =>
    Nat.ne_of_lt (hs.launched j r hr).1
  refine ⟨⟨fun k r hr => ?_, fun k l r q hr hq hid => ?_, fun i k hk => ?_⟩, fun k r a' hr ha' hactive => ?_⟩
  · rw [hl] at hr
    rw [hn]
    split at hr
    · rename_i hk
      cases hr
      exact ⟨by rw [hk]; exact Nat.lt_succ_self _, hlt⟩
    · obtain ⟨hk, hlt'⟩ := hs.launched k r hr
      exact ⟨Nat.lt_succ_of_lt hk, Nat.lt_of_lt_of_le hlt' hnext⟩
  · rw [hl] at hr hq
    split at hr <;> split at hq
    · omega
    · cases hr
      exact absurd hid.symm (hfree l q hq)
    · cases hq
      exact absurd hid (hfree k r hr)
    · exact hs.distinct k l r q hr hq hid
  · have hk' : (s.runtimes.put a.id s.nextLaunch).get? i = some k := hk
    rw [Table.get?_put] at hk'
    rw [hl]
    split at hk'
    · rename_i hi
      cases hk'
      exact ⟨_, if_pos rfl, hi.symm⟩
    · obtain ⟨r, hr, hid⟩ := hs.found i k hk'
      exact ⟨r, by rw [if_neg (hold k r hr)]; exact hr, hid⟩
  · rw [hl] at hr
    have hrow : (updatePhase db' a.id .waitingForExecutionChain).attempts.get? r.attemptId = some a' := ha'
    split at hr
    · cases hr
      rw [updatePhase_own db' a.id _ hrow hactive]
      exact fits_of_early rfl List.mem_cons_self fun hready => by cases hready
    · have hne := hfree k r hr
      rw [updatePhase_other db' hne, hrows _ hne] at hrow
      exact hs.fits k r a' hr hrow hactive

/-! ## The loop -/

/-- An attempt that is started again. -/
structure Restarted (a a' : SessionTransferAttempt) : Prop where
  same : SameAttempt a a'
  active : a.phase.terminal = false
  unstreamed : a.phase ≠ .streaming ∧ a.phase ≠ .awaitingAck
  phase : a'.phase = .waitingForExecutionChain

/-- What rounds of the loop do to the attempts. -/
structure Restarts (s t : Service) : Prop where
  rows : ∀ i a', t.row i = some a' → ∃ a, s.row i = some a ∧ (Rests a a' ∨ Restarted a a')
  grants : t.db.grants = s.db.grants
  nextAttempt : t.db.nextAttempt = s.db.nextAttempt

theorem Restarts.refl (s : Service) : Restarts s s := ⟨fun _ a ha => ⟨a, ha, .inl (.refl a)⟩, rfl, rfl⟩

theorem Restarted.trans_rests (h : Restarted a b) (h' : Rests b a') : Rests a a' ∨ Restarted a a' := by
  rcases h'.phase with hp | ⟨-, hended⟩
  · exact .inr ⟨h.same.trans h'.same, h.active, h.unstreamed, hp.trans h.phase⟩
  · exact .inl ⟨h.same.trans h'.same, .inr ⟨h.active, hended⟩⟩

theorem Rests.trans_restarted (h : Rests a b) (h' : Restarted b a') : Restarted a a' := by
  have hp := h.active h'.active
  have hactive := h'.active
  have hun := h'.unstreamed
  rw [hp] at hactive hun
  exact ⟨h.same.trans h'.same, hactive, hun, h'.phase⟩

/-- Rounds of the loop, and then a quiet step. -/
theorem Restarts.quiet_rows (h : Restarts s u) (hq : Quiet u t) {i : Nat} (ha' : t.row i = some a') :
    ∃ a, s.row i = some a ∧ (Rests a a' ∨ Restarted a a') := by
  obtain ⟨b, hb, hrest⟩ := hq.rows i a' ha'
  obtain ⟨a, ha, hab | hab⟩ := h.rows i b hb
  · exact ⟨a, ha, .inl (hab.trans hrest)⟩
  · exact ⟨a, ha, hab.trans_rests hrest⟩

theorem Restarts.trans (h : Restarts s u) (h' : Restarts u t) : Restarts s t := by
  refine ⟨fun i a' ha' => ?_, h'.grants.trans h.grants, h'.nextAttempt.trans h.nextAttempt⟩
  obtain ⟨b, hb, hb'⟩ := h'.rows i a' ha'
  obtain ⟨a, ha, hab⟩ := h.rows i b hb
  refine ⟨a, ha, ?_⟩
  rcases hab with hrest | hre
  · rcases hb' with hrest' | hre'
    · exact .inl (hrest.trans hrest')
    · exact .inr (hrest.trans_restarted hre')
  · rcases hb' with hrest' | hre'
    · exact hre.trans_rests hrest'
    · exact .inr ⟨hre.same.trans hre'.same, hre.active, hre.unstreamed, hre'.phase⟩

/-- An attempt the loop takes up as it finds it: it was launched in this server run only if it streamed. -/
structure Left (s : Service) (a : SessionTransferAttempt) : Prop where
  row : s.row a.id = some a
  active : a.phase.terminal = false
  unlaunched : a.phase ≠ .streaming → a.phase ≠ .awaitingAck → ∀ k r, s.launched.get? k = some r → r.attemptId ≠ a.id

/-- What a round does to the others. -/
structure Round (s t : Service) (i : Nat) : Prop where
  rows : ∀ j, j ≠ i → t.row j = s.row j
  launched : ∀ k r, t.launched.get? k = some r → r.attemptId = i ∨ ∃ q, s.launched.get? k = some q ∧ q.attemptId = r.attemptId

theorem Left.round (h : Left s b) {i : Nat} (hr : Round s t i) (hi : b.id ≠ i) : Left t b where
  row := (hr.rows _ hi).trans h.row
  active := h.active
  unlaunched hstream hawait k r hk := by
    rcases hr.launched k r hk with hid | ⟨q, hq, hid⟩
    · rw [hid]
      exact Ne.symm hi
    · rw [← hid]
      exact h.unlaunched hstream hawait k q hq

theorem transitionTerminal_other (s : Service) {i j : Nat} (h : j ≠ i) (cancelled : Bool) (code : String) (now : Nat) :
    (s.transitionTerminal i cancelled code now).row j = s.row j := by
  unfold Service.transitionTerminal
  split
  · rfl
  · split
    · rfl
    · exact Table.get?_modify_ne _ _ h

theorem transitionTerminal_grants (s : Service) (i : Nat) (cancelled : Bool) (code : String) (now : Nat) :
    (s.transitionTerminal i cancelled code now).db.grants = s.db.grants := by
  unfold Service.transitionTerminal
  split
  · rfl
  · split <;> rfl

theorem reconcileAttempt_round (hdb : s.db.Sound) (hs : Chained s) (now : Nat) (hleft : Left s a) :
    (s.reconcileAttempt now a).db.Sound ∧ Chained (s.reconcileAttempt now a) ∧ Restarts s (s.reconcileAttempt now a) ∧
      Round s (s.reconcileAttempt now a) a.id := by
  unfold Service.reconcileAttempt
  split
  · have hq := quiet_failAttempt s a.id "server_restarted_during_stream" now
    refine ⟨hdb.tame hq.tame, hs.quiet hq, ⟨fun i a' ha' => ?_, transitionTerminal_grants _ _ _ _ _, hq.nextAttempt⟩,
      fun j hj => transitionTerminal_other s hj _ _ _, fun k r hr => ?_⟩
    · obtain ⟨b, hb, hrest⟩ := hq.rows i a' ha'
      exact ⟨b, hb, .inl hrest⟩
    · obtain ⟨q, hq', hb⟩ := launched_of_bare (hq.launched k) hr
      exact .inr ⟨q, hq', (attemptId_of_bare hb).symm⟩
  · rename_i hstream
    split
    · rename_i hawait
      have hrow : s.db.attempts.get? a.id = some a := hleft.row
      have htame : Tame s.db (s.db.updateAttempt a.id fun a => { a with phase := .queued }) := by
        refine tame_update fun b hb => ?_
        rw [hrow, Option.some.injEq] at hb
        subst hb
        exact ⟨rfl, rfl, rfl, hleft.active, nofun⟩
      have hother : ∀ j, j ≠ a.id → (s.db.updateAttempt a.id fun a => { a with phase := .queued }).attempts.get? j = s.row j :=
        fun j hj => Table.get?_modify_ne _ _ hj
      have hself : (s.db.updateAttempt a.id fun a => { a with phase := .queued }).attempts.get? a.id =
          some { a with phase := .queued } := by
        unfold Db.updateAttempt
        dsimp only
        rw [Table.get?_modify_self, hrow]
        rfl
      have hown : (updatePhase (s.db.updateAttempt a.id fun a => { a with phase := .queued }) a.id
          .waitingForExecutionChain).attempts.get? a.id = some { a with phase := .waitingForExecutionChain } :=
        updatePhase_set hself rfl _
      have htame' : Tame (s.db.updateAttempt a.id fun a => { a with phase := .queued })
          (updatePhase (s.db.updateAttempt a.id fun a => { a with phase := .queued }) a.id .waitingForExecutionChain) :=
        tame_updatePhase { s with db := s.db.updateAttempt a.id fun a => { a with phase := .queued } } a.id nofun
      refine ⟨(hdb.tame htame).tame htame', ?_, ⟨fun i a' ha' => ?_, ?_, htame'.nextAttempt.trans htame.nextAttempt⟩,
        fun j hj => ?_, fun k r hr => ?_⟩
      · exact Chained.launch (a := { a with phase := .queued }) _ hs (hleft.unlaunched hstream hawait) hother
          (Nat.le_of_eq htame.nextAttempt.symm) (by rw [htame.nextAttempt]; exact (hdb.keyed _ _ hrow).2)
      · by_cases hi : i = a.id
        · subst hi
          have heq := hown.symm.trans ha'
          cases heq
          exact ⟨a, hleft.row, .inr ⟨⟨rfl, rfl, rfl, rfl, rfl⟩, hleft.active, ⟨hstream, hawait⟩, rfl⟩⟩
        · have heq := (updatePhase_other _ hi _).symm.trans ha'
          exact ⟨a', (hother i hi).symm.trans heq, .inl (.refl a')⟩
      · unfold Service.launch updatePhase
        dsimp only
        split
        · rfl
        · split <;> rfl
      · exact (updatePhase_other _ hj _).trans (hother j hj)
      · have hl : (s.launched.put s.nextLaunch { attemptId := a.id, instanceId := a.instanceId }).get? k = some r := hr
        rw [Table.get?_put] at hl
        split at hl
        · cases hl
          exact .inl rfl
        · exact .inr ⟨r, hl, rfl⟩
    · exact ⟨hdb, hs, .refl s, fun _ _ => rfl, fun k r hr => .inr ⟨r, hr, rfl⟩⟩

theorem reconcile_loop (now : Nat) (l : List SessionTransferAttempt) : ∀ s : Service, s.db.Sound → Chained s →
    (l.map (·.id)).Nodup → (∀ a ∈ l, Left s a) →
      (l.foldl (fun s a => s.reconcileAttempt now a) s).db.Sound ∧ Chained (l.foldl (fun s a => s.reconcileAttempt now a) s) ∧
        Restarts s (l.foldl (fun s a => s.reconcileAttempt now a) s) := by
  induction l with
  | nil => exact fun s hdb hs _ _ => ⟨hdb, hs, .refl s⟩
  | cons a l ih =>
    intro s hdb hs hnd hleft
    rw [List.map_cons, List.nodup_cons] at hnd
    obtain ⟨hdb', hs', hre, hround⟩ := reconcileAttempt_round hdb hs now (hleft a List.mem_cons_self)
    have hrest : ∀ b ∈ l, Left (s.reconcileAttempt now a) b := by
      intro b hb
      refine (hleft b (List.mem_cons_of_mem _ hb)).round hround fun heq => hnd.1 ?_
      exact List.mem_map.2 ⟨b, hb, heq⟩
    obtain ⟨hdb'', hs'', hre'⟩ := ih _ hdb' hs' hnd.2 hrest
    exact ⟨hdb'', hs'', hre.trans hre'⟩

/-- The active attempts are different ones. -/
theorem nodup_listActive (hdb : s.db.Sound) : (s.db.listActive.map (·.id)).Nodup := by
  have hkeys : s.db.attempts.rows.map (·.2.id) = s.db.attempts.rows.map Prod.fst := by
    refine List.map_congr_left fun row hrow => ?_
    exact (hdb.keyed row.1 row.2 (Table.lookup_of_mem s.db.attempts.nodup hrow)).1
  have hsub : (s.db.listActive.map (·.id)).Sublist (s.db.attempts.rows.map (·.2.id)) := by
    have heq : s.db.attempts.rows.map (·.2.id) = s.db.attempts.values.map (·.id) := by
      unfold Table.values
      rw [List.map_map]
      rfl
    rw [heq]
    exact (List.filter_sublist).map _
  exact (hkeys ▸ s.db.attempts.nodup).sublist hsub

theorem listActive_of_row {i : Nat} (ha : s.row i = some a) (hactive : a.phase.terminal = false) : a ∈ s.db.listActive :=
  List.mem_filter.2 ⟨Table.mem_values.2 ⟨i, ha⟩, by simpa using hactive⟩

theorem mem_listActive (hdb : s.db.Sound) (ha : a ∈ s.db.listActive) : s.row a.id = some a ∧ a.phase.terminal = false := by
  unfold Db.listActive at ha
  obtain ⟨hmem, hactive⟩ := List.mem_filter.1 ha
  obtain ⟨i, hrow⟩ := Table.mem_values.1 hmem
  rw [(hdb.keyed i a hrow).1]
  exact ⟨hrow, by simpa using hactive⟩

end Leitwerk.Transfer
