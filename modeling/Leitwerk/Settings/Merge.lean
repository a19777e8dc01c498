import Leitwerk.Settings.Sound
/-!
# What each write does

The effect of every operation of the repository on a sound database when it
returns. A merge moves one subject and its aliases to another and joins their
overrides key by key; all of them are `Good`.
-/

namespace Leitwerk.Settings

open JsString (lit)
open StateAction (ok_of_bind ok_of_pure)
open Forwarding (Forest)

section Effects

variable {V α : Type} {db db' : Db V}

theorem ok_of_reads {f : Db V → Except Failure α} {a : α} (h : reads f db = (.ok a, db')) : f db = .ok a ∧ db = db' := by
  unfold reads at h
  rw [Prod.mk.injEq] at h
  exact h

theorem reads_bind {β : Type} {f : Db V → Except Failure α} {a : α} (h : f db = .ok a) (g : α → Tx V β) :
    (reads f >>= g) db = g a db := by
  rw [StateAction.bind_apply]
  unfold reads
  rw [h]

theorem ok_of_throwIf {c : Prop} [Decidable c] {failure : Failure} {u : Unit} (h : throwIf c failure db = (.ok u, db')) :
    ¬ c ∧ db = db' := by
  unfold throwIf at h
  by_cases hc : c
  · rw [if_pos hc] at h
    cases h
  · rw [if_neg hc] at h
    exact ⟨hc, (ok_of_pure h).2⟩

theorem ok_of_updates {f : Db V → Db V} {u : Unit} (h : updates f db = (.ok u, db')) : db' = f db := by
  unfold updates at h
  rw [Prod.mk.injEq] at h
  exact h.2.symm

/-! ## Overrides -/

theorem read_overrides (overrides : Table (Id × JsString) (Override V)) (id : Id) (key : JsString) :
    ({ db with overrides } : Db V).read id key = overrides.get? (db.root id, key) := rfl

/-- One override is replaced by a later one. -/
theorem good_of_override (h : Sound db) {overrides : Table (Id × JsString) (Override V)} {id : Id} {key : JsString}
    {setting : Override V} (hid : db.subjects.get? id ≠ none)
    (hnew : ∀ k, overrides.get? k = if k = (id, key) then some setting else db.overrides.get? k)
    (hrev : revisionOf (db.overrides.get? (id, key)) < setting.revision) : Good db { db with overrides } := by
  refine ⟨⟨h.forest, h.redirected, h.targets, h.aliased, ?_, h.identities⟩, ?_, KeepsIdentities.refl db⟩
  · intro id' key' setting' hget
    have hcase := hnew (id', key')
    split at hcase
    · rename_i heq
      rw [Prod.mk.injEq] at heq
      rw [hcase, Option.some.injEq] at hget
      subst hget
      exact ⟨by rw [heq.1]; exact hid, Nat.lt_of_le_of_lt (Nat.zero_le _) hrev⟩
    · rw [hcase] at hget
      exact h.owned id' key' setting' hget
  · intro id' key'
    rw [read_overrides, hnew]
    split
    · rename_i heq
      right
      rw [Db.read, heq]
      exact hrev
    · exact .inl rfl

/-- Compare and swap: with the revision that is there a write adds one to it, and with any other it changes nothing. -/
theorem write_effect (h : Sound db) (now : Int) (input : SettingsWrite V) (hid : db.subjects.get? input.subjectId ≠ none) :
    (∃ setting, write now input db = (.ok (some setting), (write now input db).2) ∧
        input.expectedRevision = revisionOf (db.read input.subjectId input.key) ∧
        setting.revision = input.expectedRevision + 1 ∧ Good db (write now input db).2) ∨
      (write now input db = (.ok none, db) ∧ input.expectedRevision ≠ revisionOf (db.read input.subjectId input.key)) := by
  have hroot := h.root_present hid
  obtain ⟨values, hvalues, hrun⟩ : ∃ values : Override V, values.revision = input.expectedRevision + 1 ∧ write now input db =
      if 0 < input.expectedRevision then updateOverride (db.root input.subjectId) input.key input.expectedRevision values db
      else insertOverride (db.root input.subjectId) input.key values db := by
    refine ⟨⟨input.value, input.mode, input.reset, input.schemaVersion, input.expectedRevision + 1, now, now, input.actor⟩, rfl, ?_⟩
    unfold write
    rw [reads_bind (canonicalId_eq h input.subjectId)]
    split <;> rfl
  rw [hrun]
  cases hcurrent : db.overrides.get? (db.root input.subjectId, input.key) with
  | none =>
    have hread : revisionOf (db.read input.subjectId input.key) = 0 := by simp [Db.read, hcurrent, revisionOf]
    rw [hread]
    by_cases hpos : 0 < input.expectedRevision
    · rw [if_pos hpos]
      refine .inr ⟨?_, by omega⟩
      unfold updateOverride
      rw [hcurrent]
    · rw [if_neg hpos]
      unfold insertOverride
      cases hcreate : db.overrides.create (db.root input.subjectId, input.key) values with
      | none =>
        obtain ⟨w, hw⟩ := Table.create_eq_none hcreate
        simp [hcurrent] at hw
      | some overrides =>
        refine .inl ⟨values, rfl, by omega, hvalues, ?_⟩
        apply good_of_override h hroot (Table.create_eq_some hcreate).2
        rw [hcurrent, hvalues]
        exact Nat.succ_pos _
  | some row =>
    have hread : revisionOf (db.read input.subjectId input.key) = row.revision := by simp [Db.read, hcurrent, revisionOf]
    have hpos' := (h.owned _ _ _ hcurrent).2
    rw [hread]
    by_cases hpos : 0 < input.expectedRevision
    · rw [if_pos hpos]
      unfold updateOverride
      rw [hcurrent]
      dsimp only
      by_cases hrev : row.revision = input.expectedRevision
      · rw [if_pos hrev]
        refine .inl ⟨_, rfl, hrev.symm, hvalues, ?_⟩
        apply good_of_override h hroot (Table.get?_put _ _ · _)
        rw [hcurrent]
        simp only [revisionOf, Option.map_some, Option.getD_some, hvalues]
        omega
      · rw [if_neg hrev]
        exact .inr ⟨rfl, Ne.symm hrev⟩
    · rw [if_neg hpos]
      refine .inr ⟨?_, by omega⟩
      unfold insertOverride
      cases hcreate : db.overrides.create (db.root input.subjectId, input.key) values with
      | none => rfl
      | some overrides =>
        have hfree := (Table.create_eq_some hcreate).1
        simp [hcurrent] at hfree

/-! ## Subjects and aliases -/

/-- A subject that has not moved is added, or changed without losing a provider's identity. -/
theorem insertSubject_effect (h : Sound db) {id : Id} {row : SubjectRow} {u : Unit} (hunmoved : db.redirects.get? id = none)
    (hkeep : ∀ old, db.subjects.get? id = some old → isLocator old.identity = false → row.identity = old.identity)
    (hrun : insertSubject id row db = (.ok u, db')) :
    db' = { db with subjects := db.subjects.put id row } ∧ Good db db' := by
  unfold insertSubject at hrun
  split at hrun
  · cases hrun
  · rename_i hunique
    rw [Prod.mk.injEq] at hrun
    obtain ⟨-, rfl⟩ := hrun
    have hget : ∀ j, (db.subjects.put id row).get? j = if j = id then some row else db.subjects.get? j :=
      fun j => Table.get?_put _ _ _ _
    have hother : ∀ j other, j ≠ id → db.subjects.get? j = some other →
        ¬ (other.scopeType = row.scopeType ∧ other.identity = row.identity) := by
      rintro j other hj hrow ⟨hscope, hidentity⟩
      apply hunique
      rw [List.any_eq_true]
      exact ⟨(j, other), Table.mem_of_lookup hrow, by simp [hj, hscope, hidentity]⟩
    have hthere : ∀ j, db.subjects.get? j ≠ none → (db.subjects.put id row).get? j ≠ none := by
      intro j hj
      rw [hget]
      split
      · simp
      · exact hj
    refine ⟨rfl, ⟨h.forest, ?_, ?_, ?_, ?_, ?_⟩, Advances.refl db, ?_⟩
    · intro j target hmoved
      obtain ⟨other, hrow, hloc⟩ := h.redirected j target hmoved
      have hne : j ≠ id := by
        rintro rfl
        simp [hunmoved] at hmoved
      exact ⟨other, by rw [hget, if_neg hne]; exact hrow, hloc⟩
    · exact fun j target hmoved => hthere _ (h.targets j target hmoved)
    · exact fun locator j hj => hthere _ (h.aliased locator j hj)
    · exact fun j key setting hset => ⟨hthere _ (h.owned j key setting hset).1, (h.owned j key setting hset).2⟩
    · intro i j a b hi hj hscope hidentity
      rw [hget] at hi hj
      split at hi <;> split at hj
      · rename_i hii hjj
        rw [hii, hjj]
      · rename_i hii hjj
        rw [Option.some.injEq] at hi
        subst hi
        exact absurd ⟨hscope.symm, hidentity.symm⟩ (hother j b hjj hj)
      · rename_i hii hjj
        rw [Option.some.injEq] at hj
        subst hj
        exact absurd ⟨hscope, hidentity⟩ (hother i a hii hi)
      · exact h.identities i j a b hi hj hscope hidentity
    · intro j old hold
      rw [hget]
      split
      · rename_i hj
        subst hj
        exact ⟨row, rfl, hkeep old hold⟩
      · exact ⟨old, hold, fun _ => rfl⟩

theorem putAlias_effect (h : Sound db) {locator : JsString} {subjectId : Id} {u : Unit} (hid : db.subjects.get? subjectId ≠ none)
    (hrun : putAlias locator subjectId db = (.ok u, db')) :
    db'.subjects = db.subjects ∧ db'.redirects = db.redirects ∧ db'.overrides = db.overrides ∧
      (∀ l i, db.aliases.get? l = some i → db'.aliases.get? l = some i) ∧ Good db db' := by
  obtain ⟨_, db₁, hput, hrest⟩ := ok_of_bind hrun
  obtain ⟨found, db₂, hread, hthrow⟩ := ok_of_bind hrest
  obtain ⟨-, rfl⟩ := ok_of_reads hread
  obtain ⟨-, rfl⟩ := ok_of_throwIf hthrow
  have hdb := ok_of_updates hput
  subst hdb
  have hget : ∀ l i, ((db.aliases.create locator subjectId).getD db.aliases).get? l = some i →
      i = subjectId ∨ db.aliases.get? l = some i := by
    intro l i hl
    cases hcreate : db.aliases.create locator subjectId with
    | none =>
      rw [hcreate] at hl
      exact .inr hl
    | some aliases =>
      rw [hcreate, Option.getD_some, (Table.create_eq_some hcreate).2] at hl
      split at hl
      · exact .inl (Option.some.inj hl).symm
      · exact .inr hl
  refine ⟨rfl, rfl, rfl, ?_, ⟨h.forest, h.redirected, h.targets, ?_, h.owned, h.identities⟩, Advances.refl db,
    KeepsIdentities.refl db⟩
  · intro l i hl
    dsimp only
    cases hcreate : db.aliases.create locator subjectId with
    | none => exact hl
    | some aliases =>
      have hfree := (Table.create_eq_some hcreate).1
      rw [Option.getD_some, (Table.create_eq_some hcreate).2, if_neg]
      · exact hl
      · rintro rfl
        simp [hfree] at hl
  · intro l i hl
    rcases hget l i hl with rfl | hold
    · exact hid
    · exact h.aliased l i hold

/-! ## Merging two subjects -/

/-- The loop over the overrides of the source changes those of the target, key by key. -/
theorem mergeOverrides_effect (now : Int) {targetId target : Id} (hcanonical : canonicalId db targetId = .ok target)
    (hself : targetId = target) (rows : List (JsString × Override V)) (hrows : (rows.map Prod.fst).Nodup)
    (overrides : Table (Id × JsString) (Override V)) :
    ∃ overrides', mergeOverrides now targetId rows { db with overrides } = (.ok (), { db with overrides := overrides' }) ∧
      (∀ key incoming, (key, incoming) ∈ rows →
        overrides'.get? (target, key) = some (retained now incoming (overrides.get? (target, key)))) ∧
      ∀ k, (k.1 ≠ target ∨ k.2 ∉ rows.map Prod.fst) → overrides'.get? k = overrides.get? k := by
  subst hself
  induction rows generalizing overrides with
  | nil => exact ⟨overrides, rfl, by simp, fun _ _ => rfl⟩
  | cons row rows ih =>
    obtain ⟨key, incoming⟩ := row
    rw [List.map_cons, List.nodup_cons] at hrows
    obtain ⟨overrides', hrun, hin, hout⟩ :=
      ih hrows.2 (overrides.put (targetId, key) (retained now incoming (overrides.get? (targetId, key))))
    have hread : getOverride ({ db with overrides } : Db V) targetId key = .ok (overrides.get? (targetId, key)) := by
      change (canonicalId db targetId).map _ = _
      rw [hcanonical]
      rfl
    refine ⟨overrides', ?_, ?_, ?_⟩
    · rw [mergeOverrides, reads_bind hread]
      exact hrun
    · intro key' incoming' hmem
      rcases List.mem_cons.1 hmem with heq | hmem
      · rw [Prod.mk.injEq] at heq
        obtain ⟨rfl, rfl⟩ := heq
        rw [hout _ (.inr hrows.1), Table.get?_put, if_pos rfl]
      · rw [hin key' incoming' hmem, Table.get?_put, if_neg]
        rintro heq
        rw [Prod.mk.injEq] at heq
        exact hrows.1 (by rw [← heq.2]; exact List.mem_map.2 ⟨_, hmem, rfl⟩)
    · intro k hk
      have hne : k ≠ (targetId, key) := by
        rintro rfl
        rcases hk with hk | hk
        · exact hk rfl
        · exact hk (by simp)
      rw [hout k (hk.imp_right fun h hmem => h (List.mem_cons_of_mem _ hmem)), Table.get?_put, if_neg hne]

/-- What a merge of `source` into `target` does. -/
structure Merged (now : Int) (source target : Id) (db db' : Db V) : Prop where
  distinct : source ≠ target
  subjects : db'.subjects = db.subjects
  redirects : db'.redirects.rows = db.redirects.rows ++ [(source, target)]
  aliases : ∀ locator, db'.aliases.get? locator = (db.aliases.get? locator).map fun id => if id = source then target else id
  joined : ∀ key incoming, db.overrides.get? (source, key) = some incoming →
    db'.overrides.get? (target, key) = some (retained now incoming (db.overrides.get? (target, key)))
  other : ∀ id key, (id ≠ target ∨ db.overrides.get? (source, key) = none) → db'.overrides.get? (id, key) = db.overrides.get? (id, key)

/-- The subjects of a merge: both canonical, and the one that moves a locator. -/
structure Mergeable (db : Db V) (source target : Id) : Prop where
  unmoved : db.redirects.get? source = none
  canonical : db.redirects.get? target = none
  locator : ∃ row, db.subjects.get? source = some row ∧ isLocator row.identity = true
  present : db.subjects.get? target ≠ none

theorem mergeLocatorSubject_effect (h : Sound db) {now : Int} {sourceId targetId : Id} {u : Unit}
    (hrun : mergeLocatorSubject now sourceId targetId db = (.ok u, db')) :
    Mergeable db (db.root sourceId) (db.root targetId) ∧ Merged now (db.root sourceId) (db.root targetId) db db' := by
  unfold mergeLocatorSubject at hrun
  rw [reads_bind (getSubject_eq h sourceId), reads_bind (getSubject_eq h targetId)] at hrun
  cases hsource : db.subjects.get? (db.root sourceId) with
  | none =>
    rw [hsource] at hrun
    cases hrun
  | some source =>
  cases htarget : db.subjects.get? (db.root targetId) with
  | none =>
    rw [hsource, htarget] at hrun
    cases hrun
  | some target =>
  rw [hsource, htarget] at hrun
  obtain ⟨_, _, hthrow, hrest⟩ := ok_of_bind hrun
  obtain ⟨hcond, rfl⟩ := ok_of_throwIf hthrow
  push Not at hcond
  obtain ⟨hne, -, -, hloc⟩ := hcond
  dsimp only at hne hloc hrest
  have hlist : listOverrides db (db.root sourceId) = .ok (db.overrides.under (db.root sourceId)) := by
    unfold listOverrides
    rw [canonicalId_eq h, h.root_root]
    rfl
  rw [reads_bind hlist] at hrest
  have hcanonical : canonicalId db (db.root targetId) = .ok (db.root targetId) := by rw [canonicalId_eq h, h.root_root]
  obtain ⟨overrides', hloop, hin, hout⟩ := mergeOverrides_effect now hcanonical rfl _
    (Table.nodup_under db.overrides (db.root sourceId)) db.overrides
  obtain ⟨_, db₁, hmerge, hrest⟩ := ok_of_bind hrest
  have hmerge' : mergeOverrides now (db.root targetId) (db.overrides.under (db.root sourceId)) db =
      (.ok (), { db with overrides := overrides' }) := hloop
  rw [hmerge', Prod.mk.injEq] at hmerge
  obtain ⟨-, rfl⟩ := hmerge
  obtain ⟨_, db₂, hupdate, hredirect⟩ := ok_of_bind hrest
  have hdb₂ := ok_of_updates hupdate
  subst hdb₂
  unfold insertRedirect at hredirect
  dsimp only at hredirect
  refine ⟨⟨h.root_unmoved _, h.root_unmoved _, ⟨source, hsource, by simpa using hloc⟩, ?_⟩, ?_⟩
  · rw [htarget]
    simp
  cases hcreate : db.redirects.create (db.root sourceId) (db.root targetId) with
  | none =>
    rw [hcreate] at hredirect
    cases hredirect
  | some redirects =>
    rw [hcreate, Prod.mk.injEq] at hredirect
    obtain ⟨-, rfl⟩ := hredirect
    refine ⟨hne, rfl, Table.create_rows hcreate, fun locator => Table.get?_map _ _ _, ?_, ?_⟩
    · exact fun key incoming hget => hin key incoming (Table.mem_under.2 hget)
    · intro id key hid
      refine hout (id, key) (hid.imp_right fun hnone hmem => ?_)
      obtain ⟨⟨key', incoming⟩, hrow, hkey⟩ := List.mem_map.1 hmem
      have hget := Table.mem_under.1 hrow
      rw [show key' = key from hkey, hnone] at hget
      cases hget

variable {now : Int} {source target : Id}

theorem Merged.root (h : Merged now source target db db') (id : Id) :
    db'.root id = if db.root id = source then target else db.root id := by
  unfold Db.root
  rw [h.redirects, Forwarding.root_snoc]

theorem Merged.good (h : Merged now source target db db') (hm : Mergeable db source target) (hsound : Sound db) : Good db db' := by
  have hget : ∀ id, db'.redirects.get? id = (db.redirects.get? id).or (if id = source then some target else none) :=
    Table.get?_of_rows h.redirects
  refine ⟨⟨?_, ?_, ?_, ?_, ?_, ?_⟩, ?_, ?_⟩
  · rw [h.redirects]
    exact .snoc hsound.forest (Table.lookup_eq_none_iff.1 hm.unmoved) (Table.lookup_eq_none_iff.1 hm.canonical) h.distinct
  · intro id t hmoved
    rw [h.subjects]
    rw [hget] at hmoved
    cases hold : db.redirects.get? id with
    | some t' => exact hsound.redirected id t' hold
    | none =>
      rw [hold, Option.none_or] at hmoved
      split at hmoved
      · rename_i hid
        rw [hid]
        exact hm.locator
      · cases hmoved
  · intro id t hmoved
    rw [h.subjects]
    rw [hget] at hmoved
    cases hold : db.redirects.get? id with
    | some t' =>
      rw [hold, Option.some_or, Option.some.injEq] at hmoved
      rw [← hmoved]
      exact hsound.targets id t' hold
    | none =>
      rw [hold, Option.none_or] at hmoved
      split at hmoved
      · rw [Option.some.injEq] at hmoved
        rw [← hmoved]
        exact hm.present
      · cases hmoved
  · intro locator id hid
    rw [h.subjects]
    rw [h.aliases] at hid
    obtain ⟨old, hold, heq⟩ := Option.map_eq_some_iff.1 hid
    split at heq
    · rw [← heq]
      exact hm.present
    · rw [← heq]
      exact hsound.aliased locator old hold
  · intro id key setting hset
    rw [h.subjects]
    by_cases hid : id = target
    · subst hid
      cases hincoming : db.overrides.get? (source, key) with
      | none =>
        rw [h.other id key (.inr hincoming)] at hset
        exact hsound.owned id key setting hset
      | some incoming =>
        rw [h.joined key incoming hincoming, Option.some.injEq] at hset
        rw [← hset]
        exact ⟨hm.present, Nat.succ_pos _⟩
    · rw [h.other id key (.inl hid)] at hset
      exact hsound.owned id key setting hset
  · rw [h.subjects]
    exact hsound.identities
  · intro id key
    unfold Db.read
    rw [h.root]
    -- what was read from the target or the source is now read from the target, with a higher revision if it was joined
    have htarget : ∀ old, (old = db.overrides.get? (target, key) ∨ old = db.overrides.get? (source, key)) →
        db'.overrides.get? (target, key) = old ∨ revisionOf old < revisionOf (db'.overrides.get? (target, key)) := by
      intro old hold
      cases hincoming : db.overrides.get? (source, key) with
      | some incoming =>
        right
        rw [h.joined key incoming hincoming]
        rcases hold with rfl | rfl
        · simp only [revisionOf, retained, Option.map_some, Option.getD_some]
          omega
        · simp only [hincoming, revisionOf, retained, Option.map_some, Option.getD_some]
          omega
      | none =>
        rw [h.other target key (.inr hincoming)]
        rcases hold with rfl | rfl
        · exact .inl rfl
        · rw [hincoming]
          cases hcurrent : db.overrides.get? (target, key) with
          | none => exact .inl rfl
          | some current => exact .inr (hsound.owned target key current hcurrent).2
    split
    · rename_i hid
      rw [hid]
      exact htarget _ (.inr rfl)
    · by_cases hid : db.root id = target
      · rw [hid]
        exact htarget _ (.inl rfl)
      · exact .inl (h.other _ key (.inl hid))
  · intro id row hrow
    rw [h.subjects]
    exact ⟨row, hrow, fun _ => rfl⟩

end Effects

end Leitwerk.Settings
