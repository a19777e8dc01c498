import Leitwerk.Transfer.Chains
/-!
# What chains, streams and clients who open a stream do

Each of their steps is quiet, or one chain acts and the rest is quiet. The step
of a chain is read off the point it is resumed at, that of a stream off the event
it meets.
-/

namespace Leitwerk.Transfer

/-- A quiet step, or a chain that acts and then a quiet step, with the chain where the phase has it. -/
def Works (digest : List UInt8 → String) (s t : Service) : Prop :=
  Quiet s t ∨ ∃ u k r r', Acts digest s u k r r' ∧ Quiet u t ∧
    ∀ a', t.row r.attemptId = some a' → a'.phase.terminal = false → Fits r' a'.phase

variable {digest : List UInt8 → String} {s t u : Service} {k : Nat} {r r' : AttemptRuntime} {p : Phase}

theorem Works.refl (s : Service) : Works digest s s := .inl (.refl s)

theorem Works.of_acts (h : Acts digest s u k r r') (hq : Quiet u t)
    (hfits : ∀ a, u.row r.attemptId = some a → a.phase.terminal = false → Fits r' a.phase) : Works digest s t := by
  refine .inr ⟨u, k, r, r', h, hq, fun a' ha' hactive => ?_⟩
  obtain ⟨a, ha, hrest⟩ := hq.rows _ a' ha'
  have hp := hrest.active hactive
  rw [hp] at hactive ⊢
  exact hfits a ha hactive

theorem Works.chained (hs : Chained s) (h : Works digest s t) : Chained t := by
  rcases h with hq | ⟨u, k, r, r', hacts, hq, hfits⟩
  · exact hs.quiet hq
  · exact hs.acts_quiet hacts hq hfits

theorem Works.sound (hs : s.db.Sound) (h : Works digest s t) : t.db.Sound := by
  rcases h with hq | ⟨u, k, r, r', hacts, hq, -⟩
  · exact hs.tame hq.tame
  · exact (hs.tame hacts.tame).tame hq.tame

/-! ## Where a chain is -/

theorem fits_congr (h : Fits r p) (hp : r'.point.phases = r.point.phases) (hprep : r'.prepared = r.prepared)
    (hst : r'.stream = r.stream) : Fits r' p := by
  unfold Fits at *
  rw [hst]
  cases hstream : r.stream with
  | none =>
    rw [hstream] at h
    dsimp only at h ⊢
    rw [hp, hprep]
    exact h
  | some stream =>
    rw [hstream] at h
    exact ⟨hp.trans h.settled, hprep ▸ h.archive, h.phase⟩

/-- The archive of a chain that is not prepared is not streamed. -/
theorem fits_early (hearly : Phase.readyToStream ∉ r.point.phases) (h : Fits r p) : r.stream = none ∧ p ∈ r.point.phases := by
  unfold Fits at h
  cases hst : r.stream with
  | none =>
    rw [hst] at h
    exact ⟨rfl, h.1⟩
  | some stream =>
    rw [hst] at h
    exact absurd (by rw [h.settled]; exact List.mem_cons_self) hearly

theorem fits_of_early (hst : r.stream = none) (hp : p ∈ r.point.phases) (hprep : p = .readyToStream → r.prepared.isSome) :
    Fits r p := by
  unfold Fits
  rw [hst]
  exact ⟨hp, hprep⟩

theorem settled_of_ready {point : ExportPoint} (h : Phase.readyToStream ∈ point.phases) : point.phases = [.readyToStream] := by
  cases point <;> simp_all [ExportPoint.phases]

/-- A chain that is not prepared moves on, and its attempt stays in its phase. -/
theorem works_point (r' : AttemptRuntime) (hs : Chained s) (hr : s.launched.get? k = some r) (hdb : t.db = s.db)
    (hl : ∀ j, t.launched.get? j = if j = k then some r' else s.launched.get? j) (hn : t.nextLaunch = s.nextLaunch)
    (hruns : t.runtimes = s.runtimes) (hid : r'.attemptId = r.attemptId) (hst : r'.stream = r.stream)
    (hearly : Phase.readyToStream ∉ r.point.phases) (hsub : ∀ p ∈ r.point.phases, p ∈ r'.point.phases) : Works digest s t := by
  refine .of_acts (acts_runtime hr hdb hl hn (fun _ _ h => hruns ▸ h) hid) (.refl t) fun a ha hactive => ?_
  have hrow : t.row = s.row := by
    unfold Service.row
    rw [hdb]
  rw [hrow] at ha
  obtain ⟨hnone, hmem⟩ := fits_early hearly (hs.fits k r a hr ha hactive)
  exact fits_of_early (hst.trans hnone) (hsub _ hmem) fun heq => absurd (heq ▸ hmem) hearly

/-- A chain that is not prepared moves on with its attempt. -/
theorem works_phase (r' : AttemptRuntime) (q : Phase) (extra : SessionTransferAttempt → SessionTransferAttempt) (hs : Chained s)
    (hr : s.launched.get? k = some r) (hdb : t.db = updatePhase s.db r.attemptId q extra)
    (hl : ∀ j, t.launched.get? j = if j = k then some r' else s.launched.get? j) (hn : t.nextLaunch = s.nextLaunch)
    (hruns : t.runtimes = s.runtimes) (hid : r'.attemptId = r.attemptId) (hst : r'.stream = r.stream)
    (hextra : ∀ a, SameIds a (extra a) ∧ (extra a).phase = a.phase)
    (hearly : Phase.readyToStream ∉ r.point.phases) (hrank : ∀ p ∈ r.point.phases, p.rank < q.rank)
    (hq : q ∈ r'.point.phases) (hprep : q = .readyToStream → r'.prepared.isSome) : Works digest s t := by
  have hopen : ∀ point : ExportPoint, ∀ q ∈ point.phases, q.terminal = false ∧ q ≠ .awaitingAck := by
    intro point q hq
    cases point <;> simp only [ExportPoint.phases, List.mem_cons, List.not_mem_nil, or_false] at hq <;>
      rcases hq with rfl | rfl | rfl | rfl <;> decide
  obtain ⟨hterm, hne⟩ := hopen _ q hq
  have hacted : Acts digest s t k r r' ∧ ∀ a', t.row r.attemptId = some a' → a'.phase.terminal = false →
      a'.phase = q ∧ ∃ a, s.row r.attemptId = some a ∧ a.phase.terminal = false :=
    acts_phase extra hr hdb hl hn (fun _ _ h => hruns ▸ h) hid hterm hextra fun a ha hactive =>
      ⟨hrank _ (fits_early hearly (hs.fits k r a hr ha hactive)).2, fun heq => absurd heq hne⟩
  obtain ⟨hacts, hphase⟩ := hacted
  refine .of_acts hacts (.refl t) fun a' ha' hactive' => ?_
  obtain ⟨hq', a, ha, hactive⟩ := hphase a' ha' hactive'
  rw [hq']
  exact fits_of_early (hst.trans (fits_early hearly (hs.fits k r a hr ha hactive)).1) hq hprep

/-! ## The export chain -/

theorem works_setPoint (hs : Chained s) (hr : s.launched.get? k = some r) (point : ExportPoint)
    (hearly : Phase.readyToStream ∉ r.point.phases) (hsub : ∀ p ∈ r.point.phases, p ∈ point.phases) :
    Works digest s (s.setPoint k point) :=
  works_point { r with point } hs hr rfl (launched_set hr) rfl rfl rfl rfl hearly hsub

theorem works_setPhase (hs : Chained s) (hr : s.launched.get? k = some r) (q : Phase) (point : ExportPoint)
    (hearly : Phase.readyToStream ∉ r.point.phases) (hrank : ∀ p ∈ r.point.phases, p.rank < q.rank)
    (hq : q ∈ point.phases) (hne : q ≠ .readyToStream) : Works digest s ((s.setPhase r.attemptId q).setPoint k point) :=
  works_phase { r with point } q (fun a => a) hs hr rfl (launched_set hr) rfl rfl rfl rfl (fun _ => ⟨⟨rfl, rfl, rfl⟩, rfl⟩) hearly hrank
    hq fun heq => absurd heq hne

theorem works_unlessAborted {rest : Service} (hrest : Works digest s rest)
    (hfail : ∀ why, Works digest s (u.setPoint k (.failing why))) : Works digest s (u.unlessAborted k r rest) := by
  unfold Service.unlessAborted
  split
  · exact hfail _
  · exact hrest

/-- An attempt is over once it was ended. -/
theorem transitionTerminal_over (s : Service) (i : Nat) (cancelled : Bool) (code : String) (now : Nat)
    {a' : SessionTransferAttempt} (h : (s.transitionTerminal i cancelled code now).row i = some a') : a'.phase.terminal = true := by
  unfold Service.transitionTerminal Service.row at h
  cases ha : s.db.attempts.get? i with
  | none =>
    rw [ha] at h
    dsimp only at h
    rw [ha] at h
    cases h
  | some a =>
    rw [ha] at h
    dsimp only at h
    split at h
    · rename_i hover
      rw [ha, Option.some.injEq] at h
      exact h ▸ hover
    · unfold Db.updateAttempt at h
      dsimp only at h
      rw [Table.get?_modify_self, ha, Option.map_some, Option.some.injEq] at h
      rw [← h]
      cases cancelled <;> rfl

/-- The `catch` handler ends an attempt whose export is pending; the attempt of a failing chain is. -/
theorem works_failing (hs : Chained s) (hr : s.launched.get? k = some r) {why : String} (hp : r.point = .failing why) (now : Nat) :
    Works digest s (match (s.setPoint k .settling).db.attempts.get? r.attemptId with
      | some current =>
        if current.exportPending then (s.setPoint k .settling).failAttempt r.attemptId why now else s.setPoint k .settling
      | none => s.setPoint k .settling) := by
  have hacts : Acts digest s (s.setPoint k .settling) k r { r with point := .settling } :=
    acts_runtime hr rfl (launched_set hr) rfl (fun _ _ h => h) rfl
  cases ha : (s.setPoint k .settling).db.attempts.get? r.attemptId with
  | none =>
    refine .inr ⟨_, k, r, _, hacts, .refl _, fun a' ha' _ => ?_⟩
    unfold Service.row at ha'
    rw [ha] at ha'
    cases ha'
  | some a =>
    dsimp only
    split
    · refine .inr ⟨_, k, r, _, hacts, quiet_failAttempt _ _ _ _, fun a' ha' hactive => ?_⟩
      rw [transitionTerminal_over _ _ _ _ _ ha'] at hactive
      cases hactive
    · rename_i hpending
      refine .inr ⟨_, k, r, _, hacts, .refl _, fun a' ha' hactive => ?_⟩
      unfold Service.row at ha'
      rw [ha, Option.some.injEq] at ha'
      subst ha'
      have hmem := (fits_early (by rw [hp]; simp [ExportPoint.phases]) (hs.fits k r a hr ha hactive)).2
      refine absurd ?_ hpending
      rw [hp] at hmem
      unfold SessionTransferAttempt.exportPending
      simp only [ExportPoint.phases, List.mem_cons, List.not_mem_nil, or_false] at hmem
      rcases hmem with hph | hph | hph | hph <;> rw [hph] <;> rfl

theorem works_settling (hs : Chained s) (hr : s.launched.get? k = some r) (hp : r.point = .settling) :
    Works digest s (match (s.setPoint k .done).db.attempts.get? r.attemptId with
      | some current =>
        if current.exportPending then s.setPoint k .done else (s.setPoint k .done).dropRuntime r.attemptId
      | none => s.setPoint k .done) := by
  have hacts : Acts digest s (s.setPoint k .done) k r { r with point := .done } :=
    acts_runtime hr rfl (launched_set hr) rfl (fun _ _ h => h) rfl
  have hfits : ∀ a, (s.setPoint k .done).row r.attemptId = some a → a.phase.terminal = false →
      Fits { r with point := .done } a.phase := by
    intro a ha hactive
    refine fits_congr (hs.fits k r a hr ha hactive) ?_ rfl rfl
    rw [hp]
    rfl
  split
  · split
    · exact .of_acts hacts (.refl _) hfits
    · exact .of_acts hacts (quiet_dropRuntime _ _) hfits
  · exact .of_acts hacts (.refl _) hfits

theorem works_exportStep (hs : Chained s) (k : Nat) (result : Service.ExportResult) (now : Nat) :
    Works digest s (s.exportStep k result now) := by
  unfold Service.exportStep
  cases hr : s.launched.get? k with
  | none => exact .refl s
  | some r =>
    dsimp only
    split
    · -- `reserving`
      rename_i processExists stable hp
      have hfail : ∀ why, Works digest s (s.setPoint k (.failing why)) := fun why =>
        works_setPoint hs hr _ (by rw [hp]; simp [ExportPoint.phases]) (by rw [hp]; simp [ExportPoint.phases])
      split
      · exact hfail _
      · split
        · exact hfail _
        · split
          · exact hfail _
          · split
            · exact works_setPoint hs hr _ (by rw [hp]; simp [ExportPoint.phases]) (by rw [hp]; simp [ExportPoint.phases])
            · exact works_setPhase hs hr _ _ (by rw [hp]; simp [ExportPoint.phases])
                (by rw [hp]; simp [ExportPoint.phases, Phase.rank]) (by simp [ExportPoint.phases]) nofun
    · -- `delaying`
      rename_i hp
      split <;> exact works_setPoint hs hr _ (by rw [hp]; simp [ExportPoint.phases]) (by rw [hp]; simp [ExportPoint.phases])
    · -- `reserved`
      rename_i hp
      exact works_unlessAborted
        (works_setPoint hs hr _ (by rw [hp]; simp [ExportPoint.phases]) (by rw [hp]; simp [ExportPoint.phases]))
        fun why => works_setPoint hs hr _ (by rw [hp]; simp [ExportPoint.phases]) (by rw [hp]; simp [ExportPoint.phases])
    · -- `stopping`
      rename_i hp
      have hfail : ∀ why, Works digest s (s.setPoint k (.failing why)) := fun why =>
        works_setPoint hs hr _ (by rw [hp]; simp [ExportPoint.phases]) (by rw [hp]; simp [ExportPoint.phases])
      split
      · exact hfail _
      · split
        · exact hfail _
        · exact works_unlessAborted (works_setPhase hs hr _ _ (by rw [hp]; simp [ExportPoint.phases])
            (by rw [hp]; simp [ExportPoint.phases, Phase.rank]) (by simp [ExportPoint.phases]) nofun) hfail
    · -- `manifesting`
      rename_i hp
      have hfail : ∀ why, Works digest s (s.setPoint k (.failing why)) := fun why =>
        works_setPoint hs hr _ (by rw [hp]; simp [ExportPoint.phases]) (by rw [hp]; simp [ExportPoint.phases])
      split
      · exact hfail _
      · exact works_unlessAborted (works_setPhase hs hr _ _ (by rw [hp]; simp [ExportPoint.phases])
          (by rw [hp]; simp [ExportPoint.phases, Phase.rank]) (by simp [ExportPoint.phases]) nofun) hfail
    · -- `preparing`
      rename_i result hp
      split
      · exact works_setPoint hs hr _ (by rw [hp]; simp [ExportPoint.phases]) (by rw [hp]; simp [ExportPoint.phases])
      · rename_i prepared
        refine works_unlessAborted ?_ fun why => ?_
        · have hl := launched_set₂ (fun r => { r with prepared := some prepared }) (fun r => { r with point := .settling }) hr
          exact works_phase { r with prepared := some prepared, point := .settling } .readyToStream
            (fun a => { a with entriesTotal := some prepared.entriesTotal, logicalBytesTotal := some prepared.logicalBytesTotal })
            hs hr rfl hl rfl rfl rfl rfl (fun _ => ⟨⟨rfl, rfl, rfl⟩, rfl⟩) (by rw [hp]; simp [ExportPoint.phases])
            (by rw [hp]; simp [ExportPoint.phases, Phase.rank]) (by simp [ExportPoint.phases]) fun _ => rfl
        · have hl := launched_set₂ (fun r => { r with prepared := some prepared }) (fun r => { r with point := .failing why }) hr
          exact works_point { r with prepared := some prepared, point := .failing why } hs hr rfl hl rfl rfl rfl rfl
            (by rw [hp]; simp [ExportPoint.phases]) (by rw [hp]; simp [ExportPoint.phases])
    · -- `failing`
      rename_i hp
      exact works_failing hs hr hp now
    · -- `settling`
      rename_i hp
      exact works_settling hs hr hp
    · exact .refl s

/-! ## A stream -/

theorem launched_setStream {stream : ArchiveStream} (f : ArchiveStream → ArchiveStream) (hr : s.launched.get? k = some r)
    (hst : r.stream = some stream) (j : Nat) :
    (s.setStream k f).launched.get? j = if j = k then some { r with stream := some (f stream) } else s.launched.get? j := by
  unfold Service.setStream Service.setRuntime
  rw [launched_set hr, hst]
  rfl

/-- A stream changes, and its attempt does not. -/
theorem works_setStream {stream : ArchiveStream} (hs : Chained s) (hr : s.launched.get? k = some r) (hst : r.stream = some stream)
    (f : ArchiveStream → ArchiveStream) (hfin : (f stream).finished = stream.finished)
    (hall : (f stream).produced ++ (f stream).remaining = stream.produced ++ stream.remaining)
    (hq : Quiet (s.setStream k f) t) : Works digest s t := by
  have hacts : Acts digest s (s.setStream k f) k r { r with stream := some (f stream) } :=
    acts_runtime hr rfl (launched_setStream f hr hst) rfl (fun _ _ h => h) rfl
  refine .of_acts hacts hq fun a ha hactive => ?_
  have hfits := hs.fits k r a hr ha hactive
  unfold Fits at hfits ⊢
  rw [hst] at hfits
  obtain ⟨hsettled, ⟨prepared, hprep, harch⟩, hphase⟩ := hfits
  refine ⟨hsettled, ⟨prepared, hprep, hall.trans harch⟩, ?_⟩
  rw [hfin]
  exact hphase

/-- The meter flushes: the whole archive was produced, and the attempt awaits its acknowledgement. -/
theorem works_flush {stream : ArchiveStream} (hs : Chained s) (hr : s.launched.get? k = some r) (hst : r.stream = some stream)
    (hrem : stream.remaining = []) (hfin : stream.finished = false) :
    Works digest s (((s.setStream k fun x => { x with finished := true }).setPhase r.attemptId .awaitingAck fun a =>
      { a with compressedBytes := some stream.produced.flatten.length
               streamSha256 := some (digest stream.produced.flatten) }).dropRuntime r.attemptId) := by
  have hopen : ∀ a, s.row r.attemptId = some a → a.phase.terminal = false → Streams r stream a.phase := by
    intro a ha hactive
    have hfits := hs.fits k r a hr ha hactive
    unfold Fits at hfits
    rw [hst] at hfits
    exact hfits
  let u := (s.setStream k fun x => { x with finished := true }).setPhase r.attemptId .awaitingAck fun a =>
      { a with compressedBytes := some stream.produced.flatten.length
               streamSha256 := some (digest stream.produced.flatten) }
  have hacted : Acts digest s u k r { r with stream := some { stream with finished := true } } ∧
      ∀ a', u.row r.attemptId = some a' → a'.phase.terminal = false →
        a'.phase = .awaitingAck ∧ ∃ a, s.row r.attemptId = some a ∧ a.phase.terminal = false := by
    refine acts_phase (fun a => { a with
      compressedBytes := some stream.produced.flatten.length
      streamSha256 := some (digest stream.produced.flatten) }) hr rfl
      (launched_setStream (fun x => { x with finished := true }) hr hst) rfl (fun _ _ h => h) rfl rfl
      (fun _ => ⟨⟨rfl, rfl, rfl⟩, rfl⟩) fun a ha hactive => ?_
    obtain ⟨-, ⟨prepared, hprep, harch⟩, hphase⟩ := hopen a ha hactive
    rw [hrem, List.append_nil] at harch
    rcases hphase with ⟨hphase, -⟩ | ⟨-, hdone⟩
    · refine ⟨by rw [hphase]; decide, fun _ => ⟨k, r, prepared, stream, hr, rfl, hprep, hst, harch, ?_, ?_⟩⟩
      · rw [harch]
      · rw [harch]
    · rw [hfin] at hdone
      cases hdone
  obtain ⟨hacts, hphase⟩ := hacted
  refine .of_acts hacts (quiet_dropRuntime u _) fun a' ha' hactive' => ?_
  obtain ⟨hawait, a, ha, hactive⟩ := hphase a' ha' hactive'
  obtain ⟨hsettled, harch, -⟩ := hopen a ha hactive
  exact ⟨hsettled, harch, .inr ⟨hawait, rfl⟩⟩

theorem works_streamStep (hs : Chained s) (maxCompressedBytes k : Nat) (e : Service.StreamEvent) (now : Nat) :
    Works digest s (s.streamStep digest maxCompressedBytes k e now) := by
  unfold Service.streamStep
  cases hr : s.launched.get? k with
  | none => exact .refl s
  | some r =>
    dsimp only
    cases hst : r.stream with
    | none => exact .refl s
    | some stream =>
      dsimp only
      have hfail : ∀ why, Works digest s (s.failStream k r stream why now) := fun why =>
        works_setStream hs hr hst _ rfl rfl (quiet_endStream _ _ _ _ _)
      split
      · exact .refl s
      · split
        · -- `chunk`
          rename_i chunk rest hrem
          split
          · exact .refl s
          · split
            · exact hfail _
            · refine works_setStream hs hr hst (fun x => { x with remaining := rest, produced := x.produced ++ [chunk] }) rfl ?_
                (.refl _)
              rw [hrem, List.append_assoc]
              rfl
        · -- `flush`
          rename_i hrem
          split
          · exact .refl s
          · rename_i hgoing
            split
            · exact hfail _
            · exact works_flush hs hr hst hrem (by simpa using fun h => hgoing (.inl h))
        · -- `error`
          split
          · exact .refl s
          · exact hfail _
        · -- `close`
          exact works_setStream hs hr hst (fun x => { x with closed := true }) rfl rfl (quiet_endStream _ _ _ _ _)
        · exact .refl s

/-! ## Who opens a stream -/

/-- What a verified request names. -/
theorem verifyAttempt_row {db : Db} (hs : db.Sound) {hash : String → String} {auth : Db.AttemptAuth} {a : SessionTransferAttempt}
    (h : db.verifyAttempt hash auth = some a) : db.attempts.get? auth.attemptId = some a ∧ a.id = auth.attemptId := by
  unfold Db.verifyAttempt at h
  split at h
  · rename_i hrow
    split at h
    · cases h
      exact ⟨hrow, (hs.keyed _ _ hrow).1⟩
    · cases h
  · cases h

theorem claimable_eq_some {attempt : SessionTransferAttempt} {prepared : PreparedProcessStateExport}
    (h : s.claimable attempt = some (k, r, prepared)) : s.runtimes.get? attempt.id = some k ∧ s.launched.get? k = some r ∧
      r.prepared = some prepared ∧ attempt.phase = .readyToStream ∧ r.streamClaimed = false := by
  unfold Service.claimable at h
  cases hk : s.runtimes.get? attempt.id with
  | none => rw [hk] at h; cases h
  | some k' =>
    cases hr : s.launched.get? k' with
    | none => simp [hk, hr] at h
    | some r' =>
      cases hp : r'.prepared with
      | none => simp [hk, hr, hp] at h
      | some p =>
        simp only [hk, hr, hp, bind, Option.bind] at h
        split at h
        · rename_i hready
          cases h
          exact ⟨rfl, hr, hp, hready⟩
        · cases h

/-- The attempt of a prepared chain, before a stream is claimed. -/
theorem unclaimed {a : SessionTransferAttempt} (hs : Chained s) (hr : s.launched.get? k = some r)
    (ha : s.row r.attemptId = some a) (hready : a.phase = .readyToStream) :
    r.stream = none ∧ r.point.phases = [.readyToStream] := by
  have hfits := hs.fits k r a hr ha (by rw [hready]; rfl)
  unfold Fits at hfits
  rw [hready] at hfits
  cases hst : r.stream with
  | none =>
    rw [hst] at hfits
    exact ⟨rfl, settled_of_ready hfits.1⟩
  | some stream =>
    rw [hst] at hfits
    rcases hfits.phase with ⟨hp, -⟩ | ⟨hp, -⟩ <;> cases hp

/-- Claiming the stream of a prepared attempt. -/
theorem acts_claim (t : Service) (r' : AttemptRuntime) {a : SessionTransferAttempt} (hr : s.launched.get? k = some r) (ha : s.row r.attemptId = some a)
    (hready : a.phase = .readyToStream) (hid : r'.attemptId = r.attemptId)
    (hdb : t.db = updatePhase s.db r.attemptId .streaming) (hl : ∀ j, t.launched.get? j = if j = k then some r' else s.launched.get? j)
    (hn : t.nextLaunch = s.nextLaunch) (hruns : t.runtimes = s.runtimes) :
    Acts digest s t k r r' ∧ ∀ a', t.row r.attemptId = some a' → a'.phase.terminal = false → a'.phase = .streaming := by
  have hacted : Acts digest s t k r r' ∧ ∀ a', t.row r.attemptId = some a' → a'.phase.terminal = false →
      a'.phase = .streaming ∧ ∃ a, s.row r.attemptId = some a ∧ a.phase.terminal = false := by
    refine acts_phase (fun a => a) hr hdb hl hn (fun _ _ h => hruns ▸ h) hid rfl (fun _ => ⟨⟨rfl, rfl, rfl⟩, rfl⟩) fun b hb _ => ?_
    rw [ha, Option.some.injEq] at hb
    subst hb
    exact ⟨by rw [hready]; decide, nofun⟩
  exact ⟨hacted.1, fun a' ha' hactive => (hacted.2 a' ha' hactive).1⟩

theorem works_openStream (hs : Chained s) (hdb : s.db.Sound) (hash : String → String) (auth : Db.AttemptAuth)
    (error : Option String) (now : Nat) : Works digest s (s.openStream hash auth error now).1 := by
  unfold Service.openStream
  split
  · exact .refl s
  · rename_i attempt hver
    split
    · exact .inl (quiet_cancelIfExpired s attempt now)
    · split
      · exact .refl s
      · rename_i k r prepared hclaim
        obtain ⟨hk, hr, hprep, hready, -⟩ := claimable_eq_some hclaim
        obtain ⟨hrow, hid⟩ := verifyAttempt_row hdb hver
        obtain ⟨r₀, hr₀, hrid⟩ := hs.found _ _ hk
        rw [hr, Option.some.injEq] at hr₀
        subst hr₀
        have hrow' : s.row r.attemptId = some attempt := by
          rw [hrid, hid]
          exact hrow
        rw [← hrid]
        cases error with
        | some why =>
          have hl := launched_set (f := fun r => { r with streamClaimed := true }) hr
          obtain ⟨hacts, -⟩ := acts_claim ((s.setRuntime k fun r => { r with streamClaimed := true }).setPhase r.attemptId .streaming)
            { r with streamClaimed := true } hr hrow' hready rfl rfl hl rfl rfl
          refine .inr ⟨_, k, r, _, hacts, quiet_failAttempt _ r.attemptId why now, fun a' ha' hactive => ?_⟩
          rw [transitionTerminal_over _ _ _ _ _ ha'] at hactive
          cases hactive
        | none =>
          have hl := launched_set₂ (fun r => { r with streamClaimed := true })
            (fun r => { r with stream := some { remaining := prepared.archive } }) hr
          obtain ⟨hacts, hphase⟩ := acts_claim (((s.setRuntime k fun r => { r with streamClaimed := true }).setPhase r.attemptId
            .streaming).setRuntime k fun r => { r with stream := some { remaining := prepared.archive } })
            { r with streamClaimed := true, stream := some { remaining := prepared.archive } } hr hrow' hready rfl rfl hl rfl rfl
          refine .of_acts hacts (.refl _) fun a' ha' hactive => ?_
          have hstreams : Streams r { remaining := prepared.archive } a'.phase :=
            ⟨(unclaimed hs hr hrow' hready).2, ⟨prepared, hprep, rfl⟩, .inl ⟨hphase a' ha' hactive, rfl⟩⟩
          exact ⟨hstreams.settled, hstreams.archive, hstreams.phase⟩

/-- Only a prepared attempt hands its archive out, and then it streams it. -/
theorem openStream_handed (hdb : s.db.Sound) {hash : String → String} {auth : Db.AttemptAuth} {error : Option String} {now : Nat}
    (h : (s.openStream hash auth error now).2 = true) : ∃ a k r, s.row auth.attemptId = some a ∧ a.phase = .readyToStream ∧
      s.runtimes.get? auth.attemptId = some k ∧ s.launched.get? k = some r ∧ r.prepared.isSome ∧
        ∃ a', (s.openStream hash auth error now).1.row auth.attemptId = some a' ∧ a'.phase = .streaming := by
  unfold Service.openStream at h ⊢
  split at h
  · cases h
  · rename_i attempt hver
    split at h
    · cases h
    · rename_i hdead
      split at h
      · cases h
      · rename_i k r prepared hclaim
        obtain ⟨hk, hr, hprep, hready, -⟩ := claimable_eq_some hclaim
        obtain ⟨hrow, hid⟩ := verifyAttempt_row hdb hver
        cases error with
        | some why => cases h
        | none =>
          refine ⟨attempt, k, r, hrow, hready, hid ▸ hk, hr, by rw [hprep]; rfl, { attempt with phase := .streaming }, ?_, rfl⟩
          rw [← hid] at hrow
          have hupd : updatePhase s.db attempt.id .streaming = s.db.updateAttempt attempt.id fun a => { a with phase := .streaming } := by
            unfold updatePhase
            rw [hrow]
            dsimp only
            rw [if_neg (by rw [hready]; decide)]
          rw [if_neg hdead]
          show (updatePhase s.db attempt.id .streaming).attempts.get? auth.attemptId = _
          rw [hupd, ← hid]
          unfold Db.updateAttempt
          dsimp only
          rw [Table.get?_modify_self, hrow]
          rfl

end Leitwerk.Transfer
