import Leitwerk.Transfer.Books
/-!
# Export chains and streams of a run

Each attempt has at most one chain in a server run, so the phase of an attempt
that is not over says where its chain is, and what its stream produced. `Acts`
is what a chain or a stream does in one step: it changes its own runtime and
advances its own attempt.
-/

namespace Leitwerk.Transfer

/-! ## The order of phases -/

/-- The order in which an attempt passes the phases. -/
def Phase.rank : Phase → Nat
  | .queued => 0
  | .waitingForExecutionChain => 1
  | .stoppingWorker => 2
  | .startingExporter => 3
  | .scanning => 4
  | .readyToStream => 5
  | .streaming => 6
  | .awaitingAck => 7
  | .consumed | .cancelled | .failed => 8

/-- The phases a chain leaves an attempt in at a point, unless it is over. -/
def ExportPoint.phases : ExportPoint → List Phase
  | .reserving | .delaying => [.waitingForExecutionChain]
  | .reserved | .stopping => [.stoppingWorker]
  | .manifesting => [.startingExporter]
  | .preparing => [.scanning]
  | .failing _ => [.waitingForExecutionChain, .stoppingWorker, .startingExporter, .scanning]
  | .settling | .done => [.readyToStream]

/-- A stream holds what is left of the archive its chain prepared. -/
structure Streams (r : AttemptRuntime) (stream : ArchiveStream) (p : Phase) : Prop where
  settled : r.point.phases = [.readyToStream]
  archive : ∃ prepared, r.prepared = some prepared ∧ stream.produced ++ stream.remaining = prepared.archive
  phase : p = .streaming ∧ stream.finished = false ∨ p = .awaitingAck ∧ stream.finished = true

/-- Where the chain and the stream of an attempt that is not over are in its phase. -/
def Fits (r : AttemptRuntime) (p : Phase) : Prop :=
  match r.stream with
  | none => p ∈ r.point.phases ∧ (p = .readyToStream → r.prepared.isSome)
  | some stream => Streams r stream p

theorem fits_bare {r r' : AttemptRuntime} (h : r'.bare = r.bare) {p : Phase} (hf : Fits r p) : Fits r' p := by
  obtain ⟨id, inst, point, aborted, prepared, claimed, stream⟩ := r
  obtain ⟨id', inst', point', aborted', prepared', claimed', stream'⟩ := r'
  simp only [AttemptRuntime.bare, AttemptRuntime.mk.injEq] at h
  obtain ⟨-, -, rfl, -, rfl, -, rfl⟩ := h
  cases stream' with
  | none => exact hf
  | some stream => exact ⟨hf.settled, hf.archive, hf.phase⟩

/-- An attempt is launched once, and requests find its launch. -/
structure Launches (s : Service) : Prop where
  launched : ∀ k r, s.launched.get? k = some r → k < s.nextLaunch ∧ r.attemptId < s.db.nextAttempt
  distinct : ∀ k l r q, s.launched.get? k = some r → s.launched.get? l = some q → r.attemptId = q.attemptId → k = l
  found : ∀ i k, s.runtimes.get? i = some k → ∃ r, s.launched.get? k = some r ∧ r.attemptId = i

structure Chained (s : Service) : Prop extends Launches s where
  fits : ∀ k r a, s.launched.get? k = some r → s.row r.attemptId = some a → a.phase.terminal = false → Fits r a.phase

/-- A service that holds no runtime. -/
theorem chained_db (db : Db) : Chained { db } where
  launched _ _ h := nomatch h
  distinct _ _ _ _ h := nomatch h
  found _ _ h := nomatch h
  fits _ _ _ h := nomatch h

variable {s t u : Service}

theorem launched_of_bare {k : Nat} {r' : AttemptRuntime}
    (h : (t.launched.get? k).map AttemptRuntime.bare = (s.launched.get? k).map AttemptRuntime.bare)
    (hr' : t.launched.get? k = some r') : ∃ r, s.launched.get? k = some r ∧ r'.bare = r.bare := by
  rw [hr', Option.map_some] at h
  obtain ⟨r, hr, heq⟩ := Option.map_eq_some_iff.1 h.symm
  exact ⟨r, hr, heq.symm⟩

theorem attemptId_of_bare {r r' : AttemptRuntime} (h : r'.bare = r.bare) : r'.attemptId = r.attemptId := by
  simp only [AttemptRuntime.bare, AttemptRuntime.mk.injEq] at h
  exact h.1

theorem Launches.quiet (hs : Launches s) (h : Quiet s t) : Launches t where
  launched k r' hr' := by
    obtain ⟨r, hr, hb⟩ := launched_of_bare (h.launched k) hr'
    rw [h.nextLaunch, h.nextAttempt, attemptId_of_bare hb]
    exact hs.launched k r hr
  distinct k l r' q' hr' hq' hid := by
    obtain ⟨r, hr, hb⟩ := launched_of_bare (h.launched k) hr'
    obtain ⟨q, hq, hb'⟩ := launched_of_bare (h.launched l) hq'
    rw [attemptId_of_bare hb, attemptId_of_bare hb'] at hid
    exact hs.distinct k l r q hr hq hid
  found i k hk := by
    obtain ⟨r, hr, hid⟩ := hs.found i k (h.runtimes i k hk)
    obtain ⟨r', hr', hb⟩ := launched_of_bare (h.launched k).symm hr
    exact ⟨r', hr', (attemptId_of_bare hb).symm.trans hid⟩

theorem Chained.quiet (hs : Chained s) (h : Quiet s t) : Chained t where
  toLaunches := hs.toLaunches.quiet h
  fits k r' a' hr' ha' hactive := by
    obtain ⟨r, hr, hb⟩ := launched_of_bare (h.launched k) hr'
    rw [attemptId_of_bare hb] at ha'
    obtain ⟨a, ha, hrest⟩ := h.rows _ a' ha'
    have hp := hrest.active hactive
    rw [hp] at hactive ⊢
    exact fits_bare hb (hs.fits k r a hr ha hactive)

/-! ## A chain or a stream acts -/

/-- The whole archive of an attempt was produced, and its row carries the count and the digest. -/
def Produced (digest : List UInt8 → String) (s : Service) (i : Nat) (a' : SessionTransferAttempt) : Prop :=
  ∃ k r prepared stream, s.launched.get? k = some r ∧ r.attemptId = i ∧ r.prepared = some prepared ∧
    r.stream = some stream ∧ stream.produced = prepared.archive ∧
    a'.compressedBytes = some prepared.archive.flatten.length ∧ a'.streamSha256 = some (digest prepared.archive.flatten)

/-- What identifies an attempt. -/
structure SameIds (a a' : SessionTransferAttempt) : Prop where
  id : a'.id = a.id
  grantId : a'.grantId = a.grantId
  instanceId : a'.instanceId = a.instanceId

theorem SameAttempt.ids {a a' : SessionTransferAttempt} (h : SameAttempt a a') : SameIds a a' := ⟨h.id, h.grantId, h.instanceId⟩

theorem SameIds.trans {a b c : SessionTransferAttempt} (h : SameIds a b) (h' : SameIds b c) : SameIds a c :=
  ⟨h'.id.trans h.id, h'.grantId.trans h.grantId, h'.instanceId.trans h.instanceId⟩

/-- An attempt that was not over takes a later phase that is no end. -/
structure Rises (digest : List UInt8 → String) (s : Service) (i : Nat) (a a' : SessionTransferAttempt) : Prop where
  ids : SameIds a a'
  active : a.phase.terminal = false
  still : a'.phase.terminal = false
  rank : a.phase.rank < a'.phase.rank
  produced : a'.phase = .awaitingAck → Produced digest s i a'

structure Acts (digest : List UInt8 → String) (s t : Service) (k : Nat) (r r' : AttemptRuntime) : Prop where
  runtime : s.launched.get? k = some r
  launched : ∀ j, t.launched.get? j = if j = k then some r' else s.launched.get? j
  attemptId : r'.attemptId = r.attemptId
  grants : t.db.grants = s.db.grants
  nextAttempt : t.db.nextAttempt = s.db.nextAttempt
  nextGrant : t.db.nextGrant = s.db.nextGrant
  nextLaunch : t.nextLaunch = s.nextLaunch
  runtimes : ∀ i k, t.runtimes.get? i = some k → s.runtimes.get? i = some k
  others : ∀ i, i ≠ r.attemptId → t.row i = s.row i
  own : t.row r.attemptId = s.row r.attemptId ∨
    ∃ a a', s.row r.attemptId = some a ∧ t.row r.attemptId = some a' ∧ Rises digest s r.attemptId a a'

variable {digest : List UInt8 → String} {k : Nat} {r r' : AttemptRuntime}

theorem Acts.rows (h : Acts digest s t k r r') {i : Nat} {a' : SessionTransferAttempt} (ha' : t.row i = some a') :
    s.row i = some a' ∨ ∃ a, s.row i = some a ∧ Rises digest s i a a' := by
  by_cases hi : i = r.attemptId
  · subst hi
    rcases h.own with hrow | ⟨a, b, ha, hb, hrise⟩
    · exact .inl (hrow ▸ ha')
    · rw [ha', Option.some.injEq] at hb
      subst hb
      exact .inr ⟨a, ha, hrise⟩
  · exact .inl (h.others i hi ▸ ha')

theorem Acts.kept (h : Acts digest s t k r r') {i : Nat} {a : SessionTransferAttempt} (ha : s.row i = some a) :
    ∃ a', t.row i = some a' := by
  by_cases hi : i = r.attemptId
  · subst hi
    rcases h.own with hrow | ⟨-, b, -, hb, -⟩
    · exact ⟨a, hrow.trans ha⟩
    · exact ⟨b, hb⟩
  · exact ⟨a, (h.others i hi).trans ha⟩

theorem Acts.tame (h : Acts digest s t k r r') : Tame s.db t.db where
  rows i a' ha' := by
    rcases h.rows ha' with ha | ⟨a, ha, hrise⟩
    · exact ⟨a', ha, rfl, rfl, rfl, fun _ => rfl, fun hc => hc⟩
    · refine ⟨a, ha, hrise.ids.id, hrise.ids.grantId, hrise.ids.instanceId, fun hover => ?_, fun hc => ?_⟩
      · rw [hrise.active] at hover
        cases hover
      · have := hrise.still
        rw [hc] at this
        cases this
  grants g x hx := h.grants ▸ hx
  kept _ _ i a _ ha _ := h.kept ha
  granted i a _ := by rw [h.grants]
  nextAttempt := h.nextAttempt
  nextGrant := h.nextGrant

theorem Launches.acts (hs : Launches s) (h : Acts digest s t k r r') : Launches t where
  launched j q hq := by
    rw [h.launched] at hq
    rw [h.nextLaunch, h.nextAttempt]
    split at hq
    · rename_i hj
      cases hq
      rw [h.attemptId, hj]
      exact hs.launched k r h.runtime
    · exact hs.launched j q hq
  distinct j l p q hp hq hid := by
    -- a runtime keeps its attempt
    have hold : ∀ j p, t.launched.get? j = some p → ∃ p₀, s.launched.get? j = some p₀ ∧ p₀.attemptId = p.attemptId := by
      intro j p hp
      rw [h.launched] at hp
      split at hp
      · rename_i hj
        cases hp
        exact ⟨r, hj ▸ h.runtime, h.attemptId.symm⟩
      · exact ⟨p, hp, rfl⟩
    obtain ⟨p₀, hp₀, hpid⟩ := hold j p hp
    obtain ⟨q₀, hq₀, hqid⟩ := hold l q hq
    exact hs.distinct j l p₀ q₀ hp₀ hq₀ (by rw [hpid, hqid, hid])
  found i j hj := by
    obtain ⟨q, hq, hid⟩ := hs.found i j (h.runtimes i j hj)
    rw [h.launched]
    split
    · rename_i hjk
      rw [hjk, h.runtime, Option.some.injEq] at hq
      subst hq
      exact ⟨r', rfl, h.attemptId.trans hid⟩
    · exact ⟨q, hq, hid⟩

/-- A chain acts, and then only signals, lookups and ends of attempts change. -/
theorem Chained.acts_quiet (hs : Chained s) (h : Acts digest s u k r r') (hq : Quiet u t)
    (hfits : ∀ a', t.row r.attemptId = some a' → a'.phase.terminal = false → Fits r' a'.phase) : Chained t where
  toLaunches := (hs.toLaunches.acts h).quiet hq
  fits j q' a' hq' ha' hactive := by
    obtain ⟨q, hqu, hb⟩ := launched_of_bare (hq.launched j) hq'
    rw [h.launched] at hqu
    rw [attemptId_of_bare hb] at ha'
    split at hqu
    · cases hqu
      rw [h.attemptId] at ha'
      exact fits_bare hb (hfits a' ha' hactive)
    · rename_i hj
      have hne : q.attemptId ≠ r.attemptId := fun heq => hj (hs.distinct j k q r hqu h.runtime heq)
      obtain ⟨a, ha, hrest⟩ := hq.rows _ a' ha'
      have hp := hrest.active hactive
      rw [h.others _ hne] at ha
      rw [hp] at hactive ⊢
      exact fits_bare hb (hs.fits j q a hqu ha hactive)

theorem launched_set {f : AttemptRuntime → AttemptRuntime} (hr : s.launched.get? k = some r) (j : Nat) :
    (s.launched.modify k f).get? j = if j = k then some (f r) else s.launched.get? j := by
  rw [Table.get?_modify]
  split
  · rename_i hj
    rw [hj, hr]
    rfl
  · rfl

theorem launched_set₂ (f g : AttemptRuntime → AttemptRuntime) (hr : s.launched.get? k = some r) (j : Nat) :
    ((s.launched.modify k f).modify k g).get? j = if j = k then some (g (f r)) else s.launched.get? j := by
  rw [Table.get?_modify, launched_set hr]
  split <;> rfl

/-- A runtime changes, and the row of its attempt does not. -/
theorem acts_runtime (hr : s.launched.get? k = some r) (hdb : t.db = s.db)
    (hl : ∀ j, t.launched.get? j = if j = k then some r' else s.launched.get? j) (hn : t.nextLaunch = s.nextLaunch)
    (hruns : ∀ i k, t.runtimes.get? i = some k → s.runtimes.get? i = some k) (hid : r'.attemptId = r.attemptId) :
    Acts digest s t k r r' := by
  have hrow : t.row = s.row := by
    unfold Service.row
    rw [hdb]
  exact ⟨hr, hl, hid, by rw [hdb], by rw [hdb], by rw [hdb], hn, hruns, fun i _ => by rw [hrow], .inl (by rw [hrow])⟩

/-- What `updatePhase` does to an attempt: nothing once it is over. -/
theorem updatePhase_cases (s : Service) (i : Nat) (q : Phase) (extra : SessionTransferAttempt → SessionTransferAttempt) :
    (updatePhase s.db i q extra = s.db ∧ ∀ a, s.row i = some a → a.phase.terminal = true) ∨
      ∃ a, s.row i = some a ∧ a.phase.terminal = false ∧
        updatePhase s.db i q extra = s.db.updateAttempt i fun a => extra { a with phase := q } := by
  unfold updatePhase Service.row
  cases ha : s.db.attempts.get? i with
  | none =>
    refine .inl ⟨rfl, ?_⟩
    intro a hnone
    cases hnone
  | some a =>
    dsimp only
    split
    · rename_i hover
      exact .inl ⟨rfl, fun b hb => by cases hb; exact hover⟩
    · rename_i hactive
      exact .inr ⟨a, rfl, by simpa using hactive, rfl⟩

/-- A runtime changes, and the attempt takes a phase unless it is over. -/
theorem acts_phase {q : Phase} (extra : SessionTransferAttempt → SessionTransferAttempt)
    (hr : s.launched.get? k = some r) (hdb : t.db = updatePhase s.db r.attemptId q extra)
    (hl : ∀ j, t.launched.get? j = if j = k then some r' else s.launched.get? j) (hn : t.nextLaunch = s.nextLaunch)
    (hruns : ∀ i k, t.runtimes.get? i = some k → s.runtimes.get? i = some k) (hid : r'.attemptId = r.attemptId)
    (hq : q.terminal = false) (hextra : ∀ a, SameIds a (extra a) ∧ (extra a).phase = a.phase)
    (hstep : ∀ a, s.row r.attemptId = some a → a.phase.terminal = false → a.phase.rank < q.rank ∧
      (q = .awaitingAck → Produced digest s r.attemptId (extra { a with phase := q }))) :
    Acts digest s t k r r' ∧ ∀ a', t.row r.attemptId = some a' → a'.phase.terminal = false →
      a'.phase = q ∧ ∃ a, s.row r.attemptId = some a ∧ a.phase.terminal = false := by
  rcases updatePhase_cases s r.attemptId q extra with ⟨hsame, hover⟩ | ⟨a, ha, hactive, hset⟩
  · rw [hsame] at hdb
    refine ⟨acts_runtime hr hdb hl hn hruns hid, fun a' ha' hactive => ?_⟩
    unfold Service.row at ha'
    rw [hdb] at ha'
    rw [hover a' ha'] at hactive
    cases hactive
  · obtain ⟨hrank, hprod⟩ := hstep a ha hactive
    rw [hset] at hdb
    have hphase : (extra { a with phase := q }).phase = q := (hextra _).2
    have hrow : ∀ i, t.row i = if i = r.attemptId then some (extra { a with phase := q }) else s.row i := by
      intro i
      unfold Service.row at ha ⊢
      rw [hdb]
      show (s.db.attempts.modify _ _).get? _ = _
      rw [Table.get?_modify]
      split
      · rename_i hi
        rw [hi, ha]
        rfl
      · rfl
    have hset' : SameIds a { a with phase := q } := ⟨rfl, rfl, rfl⟩
    have hids := hset'.trans (hextra { a with phase := q }).1
    have hrise : Rises digest s r.attemptId a (extra { a with phase := q }) :=
      ⟨hids, hactive, by rw [hphase]; exact hq, by rw [hphase]; exact hrank, by rw [hphase]; exact hprod⟩
    refine ⟨⟨hr, hl, hid, by rw [hdb]; rfl, by rw [hdb]; rfl, by rw [hdb]; rfl, hn, hruns,
      fun i hi => by rw [hrow, if_neg hi], .inr ⟨a, _, ha, by rw [hrow, if_pos rfl], hrise⟩⟩, fun a' ha' _ => ?_⟩
    rw [hrow, if_pos rfl, Option.some.injEq] at ha'
    rw [← ha', hphase]
    exact ⟨rfl, a, ha, hactive⟩

end Leitwerk.Transfer
