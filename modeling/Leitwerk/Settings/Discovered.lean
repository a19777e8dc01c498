import Leitwerk.Settings.Discover
/-!
# Runs of the settings service

`discover_effect` puts the steps of a discovery together. A run of writes,
discoveries and merges from a new installation keeps the database sound, and
`scoped_settings_keep` says for each operation of a run what it may do.
-/

namespace Leitwerk.Settings

open JsString (lit)
open StateAction (ok_of_bind ok_of_pure)

section Discover

variable {V : Type} [DecidableEq V] {db db' : Db V}

/-- The redirects and the overrides are as they were, and no alias was moved. -/
structure Apart (db db' : Db V) : Prop where
  redirects : db'.redirects = db.redirects
  overrides : db'.overrides = db.overrides
  aliases : ∀ locator id, db.aliases.get? locator = some id → db'.aliases.get? locator = some id

omit [DecidableEq V] in
theorem Apart.refl (db : Db V) : Apart db db := ⟨rfl, rfl, fun _ _ h => h⟩

omit [DecidableEq V] in
theorem Apart.trans {a b c : Db V} (hab : Apart a b) (hbc : Apart b c) : Apart a c :=
  ⟨hbc.redirects.trans hab.redirects, hbc.overrides.trans hab.overrides,
    fun locator id h => hbc.aliases locator id (hab.aliases locator id h)⟩

omit [DecidableEq V] in
theorem Apart.root (h : Apart db db') (id : Id) : db'.root id = db.root id := by rw [Db.root, Db.root, h.redirects]

omit [DecidableEq V] in
theorem Apart.carries (h : Apart db db') : Carries db db' :=
  ⟨fun a b hab => by rw [h.root, h.root, hab], fun locator id hid => ⟨id, h.aliases locator id hid, rfl⟩⟩

omit [DecidableEq V] in
theorem JoinsOverrides.after {a b c : Db V} (hab : JoinsOverrides a b) (hbc : Apart b c) : JoinsOverrides a c := by
  have hread : ∀ id key, c.read id key = b.read id key := by
    intro id key
    rw [Db.read, Db.read, hbc.root, hbc.overrides]
  intro id key
  simp only [hread, hbc.root]
  exact hab id key

theorem coalesce_effect (h : Sound db) {now : Int} {input : SubjectInput} {previous : Option Subject} {candidates : List Subject}
    (hknown : ∀ c ∈ candidates, db.root c.id = c.id) (hprevious : ∀ p, previous = some p → ∃ c ∈ candidates, c.id = p.id) {u : Unit}
    (hrun : coalesce now input previous candidates db = (.ok u, db')) :
    Good db db' ∧ Carries db db' ∧ JoinsOverrides db db' ∧ db'.subjects = db.subjects ∧
      ∀ p, previous = some p → db'.root p.id = p.id := by
  have hcanonical : ∀ p, previous = some p → db.root p.id = p.id := by
    intro p hp
    obtain ⟨c, hc, heq⟩ := hprevious p hp
    rw [← heq]
    exact hknown c hc
  have hnothing : Good db db ∧ Carries db db ∧ JoinsOverrides db db ∧ db.subjects = db.subjects ∧
      ∀ p, previous = some p → db.root p.id = p.id :=
    ⟨Good.refl h, Carries.refl db, JoinsOverrides.of_same (fun _ => rfl) rfl, rfl, hcanonical⟩
  unfold coalesce at hrun
  by_cases hfew : candidates.length ≤ 1
  · rw [if_pos hfew] at hrun
    obtain ⟨-, rfl⟩ := ok_of_pure hrun
    exact hnothing
  rw [if_neg hfew] at hrun
  obtain ⟨_, _, hthrow, hrun⟩ := ok_of_bind hrun
  obtain ⟨-, rfl⟩ := ok_of_throwIf hthrow
  obtain ⟨saved, db₁, hcheck, hmerge⟩ := ok_of_bind hrun
  cases previous with
  | none =>
    obtain ⟨-, rfl⟩ := ok_of_pure hmerge
    have hnone : Agreed ([] : List (JsString × Override V)) [] := by simp [Agreed]
    obtain ⟨rfl, -⟩ := checkCandidates_effect h candidates hknown hnone hcheck
    exact hnothing
  | some p =>
    obtain ⟨c, hc, hcid⟩ := hprevious p rfl
    have hnone : Agreed ([] : List (JsString × Override V)) [] := by simp [Agreed]
    obtain ⟨rfl, -⟩ := checkCandidates_effect h candidates hknown hnone hcheck
    obtain ⟨done, hjoined, hdone⟩ := mergeInto_effect candidates hknown (Joined.start h (hcanonical p rfl)) hmerge
    have hids : ∀ x ∈ done, ∃ c ∈ candidates, x = c.id := by
      intro x hx
      rcases hdone x hx with hx | hx
      · cases hx
      · exact hx
    obtain ⟨-, hagree⟩ := agree_of_checked h hknown hcheck ⟨c, hc, hcid.symm⟩ hids
    refine ⟨hjoined.good, hjoined.carries, hjoined.joins hagree, hjoined.subjects, ?_⟩
    rintro _ ⟨⟩
    rw [hjoined.roots, hjoined.canonical, if_neg hjoined.apart]

omit [DecidableEq V] in
theorem requireSubject_effect {id : Id} {subject : Subject} (hrun : requireSubject id db = (.ok subject, db')) :
    db = db' ∧ getSubject db id = .ok (some subject) := by
  obtain ⟨found, _, hread, hrest⟩ := ok_of_bind hrun
  obtain ⟨hfind, rfl⟩ := ok_of_reads hread
  cases found with
  | none => cases hrest
  | some found =>
    obtain ⟨rfl, rfl⟩ := ok_of_pure hrest
    exact ⟨rfl, hfind⟩

omit [DecidableEq V] in
theorem checkContext_effect {scopeType : JsString} (context : List (JsString × JsString)) {u : Unit}
    (hrun : checkContext scopeType context db = (.ok u, db')) : db = db' := by
  induction context with
  | nil => exact (ok_of_pure hrun).2
  | cons entry rest ih =>
    rw [checkContext] at hrun
    obtain ⟨_, _, hrequire, hrun⟩ := ok_of_bind hrun
    obtain ⟨rfl, -⟩ := requireSubject_effect hrequire
    obtain ⟨_, _, hthrow, hrun⟩ := ok_of_bind hrun
    obtain ⟨-, rfl⟩ := ok_of_throwIf hthrow
    exact ih hrun

omit [DecidableEq V] in
theorem putSubject_effect {now : Int} {newId : Id} {input : SubjectWrite} {subject : Subject}
    (hrun : putSubject now newId input db = (.ok subject, db')) :
    ∃ row u, row.scopeType = input.scopeType ∧ row.identity = input.identity ∧ subject = { row with id := input.id.getD newId } ∧
      insertSubject (input.id.getD newId) row db = (.ok u, db') := by
  obtain ⟨previous, _, hread, hrun⟩ := ok_of_bind hrun
  obtain ⟨-, rfl⟩ := ok_of_reads hread
  obtain ⟨u, _, hinsert, hrun⟩ := ok_of_bind hrun
  obtain ⟨rfl, rfl⟩ := ok_of_pure hrun
  exact ⟨_, u, rfl, rfl, rfl, hinsert⟩

omit [DecidableEq V] in
/-- The identity of another subject cannot be taken. -/
theorem insertSubject_clash {id other : Id} {row row' : SubjectRow} {u : Unit} (hrow : db.subjects.get? other = some row')
    (hne : other ≠ id) (hscope : row'.scopeType = row.scopeType) (hidentity : row'.identity = row.identity) :
    insertSubject id row db ≠ (.ok u, db') := by
  intro hrun
  unfold insertSubject at hrun
  rw [if_pos] at hrun
  · cases hrun
  · rw [List.any_eq_true]
    exact ⟨(other, row'), Table.mem_of_lookup hrow, by simp [hne, hscope, hidentity]⟩

/-- Where the subject to settle comes from: its own identity, a locator, or a row that was merged into it. -/
def Settleable (db : Db V) (input : SubjectInput) (p : Subject) : Prop :=
  p.identity = input.identity ∨ isLocator p.identity = true ∨
    ∃ id row, db.subjects.get? id = some row ∧ id ≠ p.id ∧ row.scopeType = input.scopeType ∧ row.identity = input.identity

omit [DecidableEq V] in
theorem settle_effect (h : Sound db) {now : Int} {newId : Id} {input : SubjectInput} {previous : Option Subject}
    {context : List (JsString × JsString)} {subject : Subject} (hfresh : db.subjects.get? newId = none)
    (hknown : ∀ p, previous = some p → Known db p ∧ Settleable db input p)
    (hrun : settle now newId input previous context db = (.ok subject, db')) :
    Good db db' ∧ Apart db db' ∧ db'.subjects.get? subject.id ≠ none := by
  -- whatever is written is written to a subject that has not moved and loses no provider's identity
  have hwrite : ∀ (id : Id) (row : SubjectRow) (u : Unit), db.redirects.get? id = none →
      (∀ old, db.subjects.get? id = some old → isLocator old.identity = false → row.identity = old.identity) →
      insertSubject id row db = (.ok u, db') → Good db db' ∧ Apart db db' ∧ db'.subjects.get? id ≠ none := by
    intro id row u hunmoved hkeep hinsert
    obtain ⟨rfl, hgood⟩ := insertSubject_effect h hunmoved hkeep hinsert
    refine ⟨hgood, ⟨rfl, rfl, fun _ _ hl => hl⟩, ?_⟩
    dsimp only
    rw [Table.get?_put, if_pos rfl]
    simp
  unfold settle at hrun
  cases previous with
  | none =>
    obtain ⟨row, u, -, -, rfl, hinsert⟩ := putSubject_effect hrun
    have hunmoved : db.redirects.get? newId = none := by
      have hroot := h.root_unmoved newId
      rwa [h.root_absent hfresh] at hroot
    refine hwrite newId row u hunmoved (fun old hold => ?_) hinsert
    rw [hfresh] at hold
    cases hold
  | some p =>
    obtain ⟨⟨hrow, hroot⟩, hfrom⟩ := hknown p rfl
    dsimp only at hrun
    split at hrun
    · obtain ⟨row, u, hscope, hidentity, rfl, hinsert⟩ := putSubject_effect hrun
      have hunmoved : db.redirects.get? p.id = none := by
        have hmoved := h.root_unmoved p.id
        rwa [hroot] at hmoved
      refine hwrite p.id row u hunmoved (fun old hold hprovider => ?_) hinsert
      rw [hrow, Option.some.injEq] at hold
      subst hold
      rcases hfrom with hsame | hlocator | ⟨id, other, hother, hne, hoscope, hoidentity⟩
      · rw [hidentity, ← hsame]
      · rw [hlocator] at hprovider
        cases hprovider
      · exact absurd hinsert (insertSubject_clash hother hne (hoscope.trans hscope.symm) (hoidentity.trans hidentity.symm))
    · obtain ⟨rfl, rfl⟩ := ok_of_pure hrun
      exact ⟨Good.refl h, Apart.refl db, by simp [hrow]⟩

omit [DecidableEq V] in
theorem putAliases_effect {subjectId : Id} (aliases : List JsString) (h : Sound db) (hid : db.subjects.get? subjectId ≠ none)
    {u : Unit} (hrun : putAliases subjectId aliases db = (.ok u, db')) : Good db db' ∧ Apart db db' := by
  induction aliases generalizing db with
  | nil =>
    obtain ⟨-, rfl⟩ := ok_of_pure hrun
    exact ⟨Good.refl h, Apart.refl db⟩
  | cons locator rest ih =>
    rw [putAliases] at hrun
    obtain ⟨_, db₁, hput, hrest⟩ := ok_of_bind hrun
    obtain ⟨hsubjects, hredirects, hoverrides, haliases, hgood⟩ := putAlias_effect h hid hput
    obtain ⟨hgood', hapart⟩ := ih hgood.sound (by rw [hsubjects]; exact hid) hrest
    exact ⟨hgood.trans hgood', Apart.trans ⟨hredirects, hoverrides, haliases⟩ hapart⟩

theorem discoverIn_effect {env : Env V} (h : Sound db) {now : Int} {newId : Id} {input : SubjectInput} {aliases : List JsString}
    {subject : Subject} (hfresh : db.subjects.get? newId = none)
    (hrun : discoverIn env now newId input aliases db = (.ok subject, db')) :
    Good db db' ∧ Carries db db' ∧ JoinsOverrides db db' := by
  obtain ⟨known, _, hread, hrun⟩ := ok_of_bind hrun
  obtain ⟨hidentity, rfl⟩ := ok_of_reads hread
  obtain ⟨candidates, _, hgather, hrun⟩ := ok_of_bind hrun
  obtain ⟨rfl, hcandidates, hids⟩ := gather_all h aliases hgather
  -- the subject of the identity is canonical, and its identity is the input's unless a row was merged into it
  have hfound : ∀ p, known = some p → Known db p ∧ Settleable db input p := by
    rintro p rfl
    rcases findIdentity_eq h input.scopeType input.identity with ⟨hnone, -⟩ | ⟨id, row, row', hrow, hscope, hid, hrow', hsome⟩
    · rw [hnone] at hidentity
      cases hidentity
    · rw [hsome, Except.ok.injEq, Option.some.injEq] at hidentity
      subst hidentity
      refine ⟨⟨hrow', h.root_root id⟩, ?_⟩
      by_cases hself : db.root id = id
      · rw [hself, hrow, Option.some.injEq] at hrow'
        subst hrow'
        exact .inl hid
      · exact .inr (.inr ⟨id, row, hrow, Ne.symm hself, hscope, hid⟩)
  have hall : ∀ c ∈ candidates, Known db c ∧ Settleable db input c := by
    intro c hc
    rcases hcandidates c hc with hc | ⟨hknown, hid⟩
    · exact hfound c (Option.mem_toList.1 hc)
    · exact ⟨hknown, hid.elim .inl fun hl => .inr (.inl hl)⟩
  have hprevious : ∀ p, known.or (firstById env candidates) = some p → Known db p ∧ Settleable db input p := by
    intro p hp
    rcases Option.or_eq_some_iff.1 hp with hp | ⟨-, hp⟩
    · exact hfound p hp
    · exact hall p (firstById_mem hp)
  obtain ⟨_, db₁, hcoalesce, hrun⟩ := ok_of_bind hrun
  have hmember : ∀ p, known.or (firstById env candidates) = some p → ∃ c ∈ candidates, c.id = p.id := by
    intro p hp
    rcases Option.or_eq_some_iff.1 hp with hp | ⟨-, hp⟩
    · exact hids p (Option.mem_toList.2 hp)
    · exact ⟨p, firstById_mem hp, rfl⟩
  obtain ⟨hgood, hcarries, hjoins, hsubjects, hroots⟩ :=
    coalesce_effect h (fun c hc => (hall c hc).1.2) hmember hcoalesce
  obtain ⟨_, _, hcontext, hrun⟩ := ok_of_bind hrun
  obtain rfl := checkContext_effect _ hcontext
  obtain ⟨settled, db₂, hsettle, hrun⟩ := ok_of_bind hrun
  obtain ⟨_, db₃, hput, hrun⟩ := ok_of_bind hrun
  obtain ⟨rfl, rfl⟩ := ok_of_pure hrun
  have hknown : ∀ p, known.or (firstById env candidates) = some p → Known db₁ p ∧ Settleable db₁ input p := by
    intro p hp
    obtain ⟨hknown, hfrom⟩ := hprevious p hp
    refine ⟨⟨by rw [hsubjects]; exact hknown.1, hroots p hp⟩, ?_⟩
    unfold Settleable at hfrom ⊢
    rwa [hsubjects]
  obtain ⟨hgood', hapart, hpresent⟩ := settle_effect hgood.sound (by rw [hsubjects]; exact hfresh) hknown hsettle
  obtain ⟨hgood'', hapart'⟩ := putAliases_effect aliases hgood'.sound hpresent hput
  have haside := hapart.trans hapart'
  exact ⟨(hgood.trans hgood').trans hgood'', hcarries.trans haside.carries, hjoins.after haside⟩

/-- A discovery that returns did what its transaction did. -/
theorem discover_ok {env : Env V} {now : Int} {newId : Id} {input : SubjectInput} {subject : Subject}
    (hrun : discover env now newId input db = (.ok subject, db')) :
    ∃ aliases, discoverIn env now newId input aliases db = (.ok subject, db') := by
  obtain ⟨_, _, hthrow, hrun⟩ := ok_of_bind hrun
  obtain ⟨-, rfl⟩ := ok_of_throwIf hthrow
  obtain ⟨_, _, hthrow, hrun⟩ := ok_of_bind hrun
  obtain ⟨-, rfl⟩ := ok_of_throwIf hthrow
  obtain ⟨aliases, _, hread, hrun⟩ := ok_of_bind hrun
  obtain ⟨-, rfl⟩ := ok_of_reads hread
  refine ⟨aliases, ?_⟩
  unfold transaction at hrun
  split at hrun
  · cases hrun
  · rename_i hin
    cases hrun
    exact hin

omit [DecidableEq V] in
theorem rollsBack_transaction {α : Type} (x : Tx V α) : StateAction.RollsBack (transaction x) := by
  intro db failure db' h
  unfold transaction at h
  split at h
  · cases h
    rfl
  · cases h

omit [DecidableEq V] in
theorem reads_throwIf (c : Prop) [Decidable c] (failure : Failure) : StateAction.Reads (throwIf c failure : Tx V Unit) := by
  unfold throwIf
  split
  · exact StateAction.Reads.throw failure
  · exact StateAction.Reads.pure ()

omit [DecidableEq V] in
theorem reads_reads {α : Type} (f : Db V → Except Failure α) : StateAction.Reads (reads f) := fun _ => rfl

/-- A discovery that throws changes nothing. -/
theorem discover_rollsBack (env : Env V) (now : Int) (newId : Id) (input : SubjectInput) :
    StateAction.RollsBack (discover env now newId input) := by
  refine .bind (reads_throwIf _ _) fun _ => .bind (reads_throwIf _ _) fun _ => .bind (reads_reads _) fun aliases => ?_
  exact rollsBack_transaction _

omit [DecidableEq V] in
/-- A change that passes its checks is a compare and swap on the setting it names. -/
theorem validateWrite_effect {env : Env V} (h : Sound db) {change : Change V} {input : SettingsWrite V}
    (hrun : validateWrite env change db = (.ok input, db')) :
    db = db' ∧ db.subjects.get? input.subjectId ≠ none ∧ db.read input.subjectId input.key = db.read change.subjectId change.key ∧
      input.expectedRevision = change.expectedRevision.toNat := by
  obtain ⟨subject, _, hrequire, hrun⟩ := ok_of_bind hrun
  obtain ⟨rfl, hfound⟩ := requireSubject_effect hrequire
  obtain ⟨_, _, hread, hrun⟩ := ok_of_bind hrun
  obtain ⟨-, rfl⟩ := ok_of_reads hread
  obtain ⟨_, _, hthrow, hrun⟩ := ok_of_bind hrun
  obtain ⟨-, rfl⟩ := ok_of_throwIf hthrow
  obtain ⟨_, _, hthrow, hrun⟩ := ok_of_bind hrun
  obtain ⟨-, rfl⟩ := ok_of_throwIf hthrow
  obtain ⟨_, _, hread, hrun⟩ := ok_of_bind hrun
  obtain ⟨-, rfl⟩ := ok_of_reads hread
  obtain ⟨rfl, rfl⟩ := ok_of_pure hrun
  rw [getSubject_eq h, Except.ok.injEq] at hfound
  obtain ⟨row, hrow, rfl⟩ := Option.map_eq_some_iff.1 hfound
  refine ⟨rfl, by simp [hrow], ?_, rfl⟩
  rw [Db.read, Db.read, h.root_root]

omit [DecidableEq V] in
theorem requireSubject_reads (id : Id) : StateAction.Reads (requireSubject id : Tx V Subject) := by
  refine .bind (reads_reads _) fun found => ?_
  cases found with
  | none => exact StateAction.Reads.throw _
  | some found => exact StateAction.Reads.pure found

omit [DecidableEq V] in
theorem validateWrite_reads (env : Env V) (change : Change V) : StateAction.Reads (validateWrite env change) := by
  refine .bind (requireSubject_reads _) fun _ => .bind (reads_reads _) fun _ => ?_
  exact .bind (reads_throwIf _ _) fun _ => .bind (reads_throwIf _ _) fun _ => .bind (reads_reads _) fun _ => .pure _

omit [DecidableEq V] in
theorem write_reads_unless (now : Int) (input : SettingsWrite V) (db : Db V) :
    (∃ setting, (write now input db).1 = .ok (some setting)) ∨ (write now input db).2 = db := by
  unfold write
  rw [StateAction.bind_apply]
  simp only [reads]
  cases canonicalId db input.subjectId with
  | error failure => exact .inr rfl
  | ok subjectId =>
    dsimp only
    split
    · unfold updateOverride
      split
      · exact .inr rfl
      · split
        · exact .inl ⟨_, rfl⟩
        · exact .inr rfl
    · unfold insertOverride
      split
      · exact .inr rfl
      · exact .inl ⟨_, rfl⟩

omit [DecidableEq V] in
theorem writeSetting_rollsBack (env : Env V) (now : Int) (change : Change V) : StateAction.RollsBack (writeSetting env now change) := by
  refine .bind (reads_throwIf _ _) fun _ => .bind (validateWrite_reads env change) fun input => ?_
  intro db failure db' h
  have hunless := write_reads_unless now input db
  rw [StateAction.bind_apply] at h
  cases hwrite : write now input db with
  | mk result db₁ =>
    rw [hwrite] at h hunless
    rcases result with failure' | _ | setting
    · rcases hunless with ⟨_, hresult⟩ | rfl
      · cases hresult
      · cases h
        rfl
    · rcases hunless with ⟨_, hresult⟩ | rfl
      · cases hresult
      · cases h
        rfl
    · cases h

omit [DecidableEq V] in
/-- A write either meets the current revision and changes the setting, or fails and changes nothing. -/
theorem writeSetting_effect (h : Sound db) (env : Env V) (now : Int) (change : Change V) :
    (∃ setting, (writeSetting env now change db).1 = .ok setting ∧ change.expectedRevision = revisionOf (db.read change.subjectId change.key) ∧
        Good db (writeSetting env now change db).2) ∨
      ∃ failure, writeSetting env now change db = (.error failure, db) := by
  cases hrun : writeSetting env now change db with
  | mk result db' =>
    cases result with
    | ok setting =>
      refine .inl ⟨setting, rfl, ?_⟩
      obtain ⟨_, _, hthrow, hrest⟩ := ok_of_bind hrun
      obtain ⟨hinteger, rfl⟩ := ok_of_throwIf hthrow
      obtain ⟨input, _, hvalid, hrest⟩ := ok_of_bind hrest
      obtain ⟨rfl, hid, hread, hexpected⟩ := validateWrite_effect h hvalid
      obtain ⟨written, db₁, hwrite, hrest⟩ := ok_of_bind hrest
      rcases write_effect h now input hid with ⟨found, heq, hrev, -, hgood⟩ | ⟨heq, -⟩
      · rw [heq, Prod.mk.injEq] at hwrite
        obtain ⟨hfound, rfl⟩ := hwrite
        rw [Except.ok.injEq] at hfound
        subst hfound
        obtain ⟨-, rfl⟩ := ok_of_pure hrest
        refine ⟨?_, hgood⟩
        rw [← hread, ← hrev, hexpected]
        push Not at hinteger
        omega
      · rw [heq, Prod.mk.injEq] at hwrite
        obtain ⟨hfound, rfl⟩ := hwrite
        rw [Except.ok.injEq] at hfound
        subst hfound
        cases hrest
    | error failure =>
      refine .inr ⟨failure, ?_⟩
      suffices hsame : db' = db by rw [hsame]
      exact writeSetting_rollsBack env now change db failure db' hrun

/-! ## Runs -/

/-- What a writer does: a set or a reset, a discovery whose new subject would be `newId`, or a merge. -/
inductive Op (V : Type)
  | write (change : Change V)
  | discover (input : SubjectInput) (newId : Id)
  | merge (sourceId targetId : Id)

def perform (env : Env V) (now : Int) : Op V → Tx V Unit
  | .write change => do
    let _ ← writeSetting env now change
    return ()
  | .discover input newId => do
    let _ ← discover env now newId input
    return ()
  | .merge sourceId targetId => transaction (mergeLocatorSubject now sourceId targetId)

/-- `generateId` returns an id that no subject has. -/
def Fresh (db : Db V) : Op V → Prop
  | .discover _ newId => db.subjects.get? newId = none
  | _ => True

/-- A new installation: the subject that the service puts when it starts. -/
def installed (now : Int) : Db V :=
  { subjects := Table.empty.put (lit "instance") ⟨lit "instance", lit "installation", lit "Instance", [], 1, now, now⟩
    aliases := Table.empty
    redirects := Table.empty
    overrides := Table.empty }

inductive Reachable (env : Env V) : Db V → Prop
  | start (now : Int) : Reachable env (installed now)
  | step {db : Db V} (now : Int) (op : Op V) : Reachable env db → Fresh db op → Reachable env (perform env now op db).2

omit [DecidableEq V] in
theorem installed_sound (now : Int) : Sound (installed now : Db V) := by
  have hone : ∀ {id : Id} {row : SubjectRow}, (installed now : Db V).subjects.get? id = some row → id = lit "instance" := by
    intro id row hrow
    rw [installed, Table.get?_put] at hrow
    split at hrow
    · assumption
    · cases hrow
  refine ⟨Forwarding.Forest.nil, fun _ _ h => ?_, fun _ _ h => ?_, fun _ _ h => ?_, fun _ _ _ h => ?_, ?_⟩
  · cases h
  · cases h
  · cases h
  · cases h
  · intro id id' row row' hrow hrow' _ _
    rw [hone hrow, hone hrow']

omit [DecidableEq V] in
/-- Binding a constant does to the database what the action does. -/
theorem then_pure_state {α : Type} (x : Tx V α) (db : Db V) : ((x >>= fun _ => pure ()) db).2 = (x db).2 := by
  rw [StateAction.bind_apply]
  rcases x db with ⟨failure | a, db'⟩
  · rfl
  · rfl

/-- Every operation is safe to make at any time. -/
theorem perform_good (h : Sound db) (env : Env V) (now : Int) (op : Op V) (hfresh : Fresh db op) :
    Good db (perform env now op db).2 := by
  cases op with
  | write change =>
    rw [perform, then_pure_state]
    rcases writeSetting_effect h env now change with ⟨_, -, -, hgood⟩ | ⟨failure, heq⟩
    · exact hgood
    · rw [heq]
      exact Good.refl h
  | discover input newId =>
    rw [perform, then_pure_state]
    cases hrun : discover env now newId input db with
    | mk result db' =>
      cases result with
      | error failure =>
        rw [discover_rollsBack env now newId input db failure db' hrun]
        exact Good.refl h
      | ok subject =>
        obtain ⟨aliases, hin⟩ := discover_ok hrun
        exact (discoverIn_effect h hfresh hin).1
  | merge sourceId targetId =>
    rw [perform]
    cases hrun : mergeLocatorSubject now sourceId targetId db with
    | mk result db' =>
      rw [transaction, hrun]
      cases result with
      | error failure => exact Good.refl h
      | ok _ =>
        obtain ⟨hm, hmerged⟩ := mergeLocatorSubject_effect h hrun
        exact hmerged.good hm h

theorem Reachable.sound {env : Env V} (h : Reachable env db) : Sound db := by
  induction h with
  | start now => exact installed_sound now
  | step now op _ hfresh ih => exact (perform_good ih env now op hfresh).sound

/-- What the override of a key says through a subject id, while one is active. -/
def activeOverride (db : Db V) (id : Id) (key : JsString) : Except Failure (Option (V × Mode × Nat)) :=
  (getOverride db id key).map content

omit [DecidableEq V] in
theorem activeOverride_eq (h : Sound db) (id : Id) (key : JsString) : activeOverride db id key = .ok (content (db.read id key)) := by
  rw [activeOverride, getOverride_eq h]
  rfl

/-- What a discovery that returned did to the settings and the aliases. -/
structure Discovered (db db' : Db V) : Prop where
  kept : ∀ id other key c, canonicalId db' other = canonicalId db' id → activeOverride db other key = .ok (some c) →
    activeOverride db' id key = .ok (some c)
  none_new : ∀ id key, (∀ other, canonicalId db' other = canonicalId db' id → activeOverride db other key = .ok none) →
    activeOverride db' id key = .ok none
  aliases : ∀ locator found, findAlias db locator = .ok (some found) →
    ∃ found', findAlias db' locator = .ok (some found') ∧ canonicalId db' found.id = .ok found'.id

theorem discover_discovered {env : Env V} {now : Int} {newId : Id} {input : SubjectInput} {subject : Subject} (h : Sound db)
    (hfresh : db.subjects.get? newId = none) (hrun : discover env now newId input db = (.ok subject, db')) : Discovered db db' := by
  obtain ⟨aliases, hin⟩ := discover_ok hrun
  obtain ⟨hgood, hcarries, hjoins⟩ := discoverIn_effect h hfresh hin
  have hsame : ∀ a b, canonicalId db' a = canonicalId db' b → db'.root a = db'.root b := by
    intro a b hab
    rwa [canonicalId_eq hgood.sound, canonicalId_eq hgood.sound, Except.ok.injEq] at hab
  refine ⟨fun id other key c hother hc => ?_, fun id key hnone => ?_, fun locator found hfound => ?_⟩
  · rw [activeOverride_eq h, Except.ok.injEq] at hc
    rw [activeOverride_eq hgood.sound, (hjoins id key).1 other c (hsame other id hother) hc]
  · rw [activeOverride_eq hgood.sound, (hjoins id key).2]
    intro other hother
    have hother' := hnone other (by rw [canonicalId_eq hgood.sound, canonicalId_eq hgood.sound, hother])
    rwa [activeOverride_eq h, Except.ok.injEq] at hother'
  · obtain ⟨id, hid, heq⟩ : ∃ id, db.aliases.get? locator = some id ∧ found.id = db.root id := by
      rw [findAlias_eq h, Except.ok.injEq] at hfound
      obtain ⟨id, hid, hrow⟩ := Option.bind_eq_some_iff.1 hfound
      obtain ⟨row, -, rfl⟩ := Option.map_eq_some_iff.1 hrow
      exact ⟨id, hid, rfl⟩
    obtain ⟨id', hid', hroot⟩ := hcarries.aliases locator id hid
    obtain ⟨row, hrow⟩ := Option.ne_none_iff_exists'.1 (hgood.sound.root_present (hgood.sound.aliased locator id' hid'))
    refine ⟨{ row with id := db'.root id' }, ?_, ?_⟩
    · rw [findAlias_eq hgood.sound, hid', Option.bind_some, hrow]
      rfl
    · rw [canonicalId_eq hgood.sound, heq, hroot, hcarries.together (db.root id) id (h.root_root id)]

/-- What holds of the settings in a database, and what the next operation of any writer does to them. -/
structure SettingsKept (env : Env V) (db : Db V) : Prop where
  forest : Forwarding.Forest db.redirects.rows
  /-- Every subject id leads to one subject that has not moved. -/
  resolves : ∀ id, ∃ canonical, canonicalId db id = .ok canonical ∧ db.redirects.get? canonical = none
  aliases : ∀ locator id, db.aliases.get? locator = some id →
    ∃ found, findAlias db locator = .ok (some found) ∧ canonicalId db id = .ok found.id ∧ db.redirects.get? found.id = none
  /-- A setting that is read differently has a higher revision. -/
  advances : ∀ now op id key, Fresh db op → ∃ before after, getOverride db id key = .ok before ∧
    getOverride (perform env now op db).2 id key = .ok after ∧ (after = before ∨ revisionOf before < revisionOf after)
  /-- A write that expects another revision fails and changes nothing. -/
  stale : ∀ now change current, getOverride db change.subjectId change.key = .ok current →
    change.expectedRevision ≠ (revisionOf current : Int) → ∃ failure, writeSetting env now change db = (.error failure, db)
  /-- An identity that a provider verified stays. -/
  identities : ∀ now op id row, Fresh db op → db.subjects.get? id = some row → isLocator row.identity = false →
    ∃ row', (perform env now op db).2.subjects.get? id = some row' ∧ row'.identity = row.identity
  /-- A discovery that throws changes nothing. -/
  throws : ∀ now newId input failure db', discover env now newId input db = (.error failure, db') → db' = db
  discovered : ∀ now newId input subject db', db.subjects.get? newId = none →
    discover env now newId input db = (.ok subject, db') → Discovered db db'

/-- In every run of writes, resets, discoveries and merges by any writers. -/
theorem scoped_settings_keep (env : Env V) (db : Db V) (h : Reachable env db) : SettingsKept env db := by
  have hsound := h.sound
  refine ⟨hsound.forest, fun id => ⟨db.root id, canonicalId_eq hsound id, hsound.root_unmoved id⟩, fun locator id hid => ?_,
    fun now op id key hfresh => ?_, fun now change current hcurrent hstale => ?_, fun now op id row hfresh hrow hprovider => ?_,
    fun now newId input failure db' hrun => discover_rollsBack env now newId input db failure db' hrun,
    fun now newId input subject db' hfresh hrun => discover_discovered hsound hfresh hrun⟩
  · obtain ⟨row, hrow⟩ := Option.ne_none_iff_exists'.1 (hsound.root_present (hsound.aliased locator id hid))
    refine ⟨{ row with id := db.root id }, ?_, canonicalId_eq hsound id, hsound.root_unmoved id⟩
    rw [findAlias_eq hsound, hid, Option.bind_some, hrow]
    rfl
  · have hgood := perform_good hsound env now op hfresh
    exact ⟨_, _, getOverride_eq hsound id key, getOverride_eq hgood.sound id key, hgood.advances id key⟩
  · rw [getOverride_eq hsound, Except.ok.injEq] at hcurrent
    rcases writeSetting_effect hsound env now change with ⟨_, -, hexpected, -⟩ | hfailed
    · rw [hcurrent] at hexpected
      exact absurd hexpected hstale
    · exact hfailed
  · obtain ⟨row', hrow', hkeep⟩ := (perform_good hsound env now op hfresh).identities id row hrow
    exact ⟨row', hrow', hkeep hprovider⟩

/-- An installation of one boolean setting, with locators as they are written. -/
def sampleEnv : Env Bool :=
  { scopes := [lit "instance", repositoryScope]
    definitions := fun key => if key = lit "notify" then some ⟨[lit "instance", repositoryScope], 1, .ok⟩ else none
    null := false
    normalizeLocator := .ok
    localeCompare := fun a b => if a = b then 0 else 1 }

/-- A first write of the setting on the instance. -/
def sampleWrite : Op Bool := .write ⟨lit "instance", lit "notify", true, none, false, lit "me", 0⟩

theorem scoped_settings_keep_after_write : SettingsKept sampleEnv (perform sampleEnv 5 sampleWrite (installed 3)).2 :=
  scoped_settings_keep sampleEnv _ (.step 5 sampleWrite (.start 3) trivial)

end Discover

end Leitwerk.Settings
