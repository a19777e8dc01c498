import Leitwerk.Settings.Merge
/-!
# What a discovery leaves

When `discover` returns, the ids and aliases of the subjects it merged lead to
one of them, and each key that one of them had an active override for has that
override. The candidates agree on such a key, since a discovery of candidates
that do not fails.
-/

namespace Leitwerk.Settings

open JsString (lit)
open StateAction (ok_of_bind ok_of_pure)

section Discover

variable {V : Type} {db db' : Db V}

/-- What an override says while it is active. -/
def content (setting : Option (Override V)) : Option (V × Mode × Nat) :=
  setting.bind fun s => if s.reset then none else some (s.value, s.mode, s.schemaVersion)

/-- A merge keeps the active override of the target, or else that of the source. -/
theorem content_retained (now : Int) (incoming : Override V) (current : Option (Override V)) :
    content (some (retained now incoming current)) = (content current).or (content (some incoming)) := by
  cases current with
  | none => rfl
  | some current =>
    cases hreset : current.reset with
    | true => simp [content, retained, hreset]
    | false => simp [content, retained, hreset]

/-- Ids that are read alike stay so, and each alias leads where the id it had leads. -/
structure Carries (db db' : Db V) : Prop where
  together : ∀ a b, db.root a = db.root b → db'.root a = db'.root b
  aliases : ∀ locator id, db.aliases.get? locator = some id → ∃ id', db'.aliases.get? locator = some id' ∧ db'.root id' = db'.root id

theorem Carries.refl (db : Db V) : Carries db db := ⟨fun _ _ h => h, fun _ id h => ⟨id, h, rfl⟩⟩

theorem Carries.trans {a b c : Db V} (hab : Carries a b) (hbc : Carries b c) : Carries a c := by
  refine ⟨fun i j h => hbc.together i j (hab.together i j h), fun locator id hid => ?_⟩
  obtain ⟨id', hid', hroot⟩ := hab.aliases locator id hid
  obtain ⟨id'', hid'', hroot'⟩ := hbc.aliases locator id' hid'
  exact ⟨id'', hid'', hroot'.trans (hbc.together _ _ hroot)⟩

theorem Merged.carries {now : Int} {source target : Id} (h : Merged now source target db db') (hm : Mergeable db source target) :
    Carries db db' := by
  have hsource : db'.root source = target := by rw [h.root, root_of_unmoved hm.unmoved, if_pos rfl]
  have htarget : db'.root target = target := by
    rw [h.root, root_of_unmoved hm.canonical, if_neg (Ne.symm h.distinct)]
  refine ⟨fun a b hab => by rw [h.root, h.root, hab], fun locator id hid => ⟨_, by rw [h.aliases, hid]; rfl, ?_⟩⟩
  dsimp only
  split
  · rename_i hid
    rw [hid, hsource, htarget]
  · rfl

/-! ## Several merges into one subject -/

/-- `done` was merged into `p`, and nothing else. -/
structure Joined (before : Db V) (p : Id) (done : List Id) (db : Db V) : Prop where
  good : Good before db
  carries : Carries before db
  subjects : db.subjects = before.subjects
  canonical : before.root p = p
  apart : p ∉ done
  canonicals : ∀ x ∈ done, before.root x = x
  roots : ∀ id, db.root id = if before.root id ∈ done then p else before.root id
  kept : ∀ id key, id ≠ p → db.overrides.get? (id, key) = before.overrides.get? (id, key)
  joined : ∀ key c, content (db.overrides.get? (p, key)) = some c →
    ∃ x, (x = p ∨ x ∈ done) ∧ content (before.overrides.get? (x, key)) = some c
  active : ∀ key x, (x = p ∨ x ∈ done) → content (before.overrides.get? (x, key)) ≠ none →
    content (db.overrides.get? (p, key)) ≠ none

theorem Joined.start (h : Sound db) {p : Id} (hp : db.root p = p) : Joined db p [] db := by
  refine ⟨Good.refl h, Carries.refl db, rfl, hp, by simp, by simp, by simp, fun _ _ _ => rfl, ?_, ?_⟩
  · exact fun key c hc => ⟨p, .inl rfl, hc⟩
  · intro key x hx hactive
    rcases hx with rfl | hx
    · exact hactive
    · cases hx

theorem Joined.merge {before : Db V} {p c : Id} {done : List Id} {now : Int} {u : Unit} (h : Joined before p done db)
    (hc : before.root c = c) (hrun : mergeLocatorSubject now c p db = (.ok u, db')) : Joined before p (c :: done) db' := by
  obtain ⟨hm, hmerged⟩ := mergeLocatorSubject_effect h.good.sound hrun
  have hp : db.root p = p := by rw [h.roots, h.canonical, if_neg h.apart]
  have hne : db.root c ≠ p := by
    have hdistinct := hmerged.distinct
    rwa [hp] at hdistinct
  have hcdone : c ∉ done := by
    intro hmem
    apply hne
    rw [h.roots, hc, if_pos hmem]
  have hroot : db.root c = c := by rw [h.roots, hc, if_neg hcdone]
  rw [hp, hroot] at hm hmerged
  rw [hroot] at hne
  refine ⟨h.good.trans (hmerged.good hm h.good.sound), h.carries.trans (hmerged.carries hm), hmerged.subjects.trans h.subjects,
    h.canonical, ?_, ?_, ?_, ?_, ?_, ?_⟩
  · rw [List.mem_cons, not_or]
    exact ⟨Ne.symm hne, h.apart⟩
  · intro x hx
    rcases List.mem_cons.1 hx with rfl | hx
    · exact hc
    · exact h.canonicals x hx
  · intro id
    rw [hmerged.root, h.roots]
    by_cases hdone : before.root id ∈ done
    · rw [if_pos hdone, if_neg (Ne.symm hne), if_pos (List.mem_cons_of_mem _ hdone)]
    · rw [if_neg hdone]
      simp [List.mem_cons, hdone]
  · intro id key hid
    rw [hmerged.other id key (.inl hid), h.kept id key hid]
  · intro key x hx
    have hsource := h.kept c key hne
    cases hincoming : before.overrides.get? (c, key) with
    | none =>
      rw [hmerged.other p key (.inr (by rw [hsource, hincoming]))] at hx
      obtain ⟨y, hy, hcontent⟩ := h.joined key x hx
      exact ⟨y, hy.imp_right (List.mem_cons_of_mem _), hcontent⟩
    | some incoming =>
      rw [hmerged.joined key incoming (by rw [hsource, hincoming]), content_retained, Option.or_eq_some_iff] at hx
      rcases hx with hx | ⟨-, hx⟩
      · obtain ⟨y, hy, hcontent⟩ := h.joined key x hx
        exact ⟨y, hy.imp_right (List.mem_cons_of_mem _), hcontent⟩
      · exact ⟨c, .inr List.mem_cons_self, by rw [hincoming, hx]⟩
  · intro key x hx hactive
    have hsource := h.kept c key hne
    have hold : (x = p ∨ x ∈ done) → content (db.overrides.get? (p, key)) ≠ none := fun hx => h.active key x hx hactive
    cases hincoming : before.overrides.get? (c, key) with
    | none =>
      rw [hmerged.other p key (.inr (by rw [hsource, hincoming]))]
      apply hold
      rcases hx with hx | hx
      · exact .inl hx
      · rcases List.mem_cons.1 hx with rfl | hx
        · rw [hincoming] at hactive
          exact absurd rfl hactive
        · exact .inr hx
    | some incoming =>
      rw [hmerged.joined key incoming (by rw [hsource, hincoming]), content_retained, ne_eq, Option.or_eq_none_iff, not_and]
      intro hcurrent
      rcases hx with hx | hx
      · exact absurd hcurrent (hold (.inl hx))
      · rcases List.mem_cons.1 hx with rfl | hx
        · rwa [hincoming] at hactive
        · exact absurd hcurrent (hold (.inr hx))

theorem mergeInto_effect {before : Db V} {p : Id} {now : Int} (candidates : List Subject)
    (hcandidates : ∀ c ∈ candidates, before.root c.id = c.id) {done : List Id} {u : Unit} (h : Joined before p done db)
    (hrun : mergeInto now p candidates db = (.ok u, db')) :
    ∃ done', Joined before p done' db' ∧ ∀ x ∈ done', x ∈ done ∨ ∃ c ∈ candidates, x = c.id := by
  induction candidates generalizing db done with
  | nil =>
    obtain ⟨-, rfl⟩ := ok_of_pure hrun
    exact ⟨done, h, fun x hx => .inl hx⟩
  | cons candidate rest ih =>
    have hrest : ∀ c ∈ rest, before.root c.id = c.id := fun c hc => hcandidates c (List.mem_cons_of_mem _ hc)
    rw [mergeInto] at hrun
    obtain ⟨_, db₁, hstep, hcont⟩ := ok_of_bind hrun
    unfold mergeCandidate at hstep
    by_cases hne : candidate.id ≠ p
    · rw [if_pos hne] at hstep
      obtain ⟨done', hjoined, hsub⟩ := ih hrest (h.merge (hcandidates candidate List.mem_cons_self) hstep) hcont
      refine ⟨done', hjoined, fun x hx => ?_⟩
      rcases hsub x hx with hx | ⟨c, hc, rfl⟩
      · rcases List.mem_cons.1 hx with rfl | hx
        · exact .inr ⟨candidate, List.mem_cons_self, rfl⟩
        · exact .inl hx
      · exact .inr ⟨c, List.mem_cons_of_mem _ hc, rfl⟩
    · rw [if_neg hne] at hstep
      obtain ⟨-, rfl⟩ := ok_of_pure hstep
      obtain ⟨done', hjoined, hsub⟩ := ih hrest h hcont
      refine ⟨done', hjoined, fun x hx => ?_⟩
      rcases hsub x hx with hx | ⟨c, hc, rfl⟩
      · exact .inl hx
      · exact .inr ⟨c, List.mem_cons_of_mem _ hc, rfl⟩

/-- Active overrides of a key that are read alike afterwards are what is read then. -/
def JoinsOverrides (db db' : Db V) : Prop :=
  ∀ id key,
    (∀ other c, db'.root other = db'.root id → content (db.read other key) = some c → content (db'.read id key) = some c) ∧
    ((∀ other, db'.root other = db'.root id → content (db.read other key) = none) → content (db'.read id key) = none)

theorem JoinsOverrides.of_same (hroot : ∀ id, db'.root id = db.root id) (hoverrides : db'.overrides = db.overrides) :
    JoinsOverrides db db' := by
  have hread : ∀ id key, db'.read id key = db.read id key := by
    intro id key
    rw [Db.read, Db.read, hroot, hoverrides]
  intro id key
  rw [hread]
  refine ⟨fun other c hother hc => ?_, fun hnone => hnone id rfl⟩
  rw [hroot, hroot] at hother
  rw [← hc, Db.read, Db.read, hother]

/-- The candidates say the same of a key. -/
def Agree (db : Db V) (p : Id) (ids : List Id) : Prop :=
  ∀ key x y c c', (x = p ∨ x ∈ ids) → (y = p ∨ y ∈ ids) → content (db.overrides.get? (x, key)) = some c →
    content (db.overrides.get? (y, key)) = some c' → c = c'

theorem Joined.joins {before : Db V} {p : Id} {done : List Id} (h : Joined before p done db) (hagree : Agree before p done) :
    JoinsOverrides before db := by
  intro id key
  by_cases hid : db.root id = p
  · have hof : ∀ other, db.root other = p → (before.root other = p ∨ before.root other ∈ done) := by
      intro other hother
      rw [h.roots] at hother
      split at hother
      · exact .inr ‹_›
      · exact .inl hother
    have hread : db.read id key = db.overrides.get? (p, key) := by rw [Db.read, hid]
    rw [hid, hread]
    constructor
    · intro other c hother hc
      have hactive := h.active key _ (hof other hother) (show content (before.overrides.get? (before.root other, key)) ≠ none by
        change content (before.read other key) ≠ none
        rw [hc]
        simp)
      obtain ⟨c', hc'⟩ := Option.ne_none_iff_exists'.1 hactive
      obtain ⟨x, hx, hxc⟩ := h.joined key c' hc'
      rw [hc', hagree key _ _ c' c hx (hof other hother) hxc hc]
    · intro hnone
      cases hc : content (db.overrides.get? (p, key)) with
      | none => rfl
      | some c =>
        exfalso
        obtain ⟨x, hx, hxc⟩ := h.joined key c hc
        -- every merged id is its own root before, and leads to `p` now
        rcases hx with rfl | hx
        · have hself := hnone x (by rw [h.roots, h.canonical, if_neg h.apart])
          rw [Db.read, h.canonical, hxc] at hself
          cases hself
        · have hself := hnone x (by rw [h.roots, h.canonicals x hx, if_pos hx])
          rw [Db.read, h.canonicals x hx, hxc] at hself
          cases hself
  · have hkept : before.root id ∉ done ∧ db.root id = before.root id := by
      have hroots := h.roots id
      split at hroots
      · exact absurd hroots hid
      · exact ⟨‹_›, hroots⟩
    have hread : db.read id key = before.read id key := by
      rw [Db.read, Db.read, hkept.2]
      exact h.kept _ _ (by rw [← hkept.2]; exact hid)
    rw [hread]
    refine ⟨fun other c hother hc => ?_, fun hnone => hnone id rfl⟩
    rw [h.roots other] at hother
    split at hother
    · exact absurd hother.symm hid
    · rw [← hc, Db.read, Db.read, hother, hkept.2]

/-! ## The candidates -/

/-- A canonical subject as it is in the database. -/
def Known (db : Db V) (subject : Subject) : Prop := db.subjects.get? subject.id = some subject.toSubjectRow ∧ db.root subject.id = subject.id

theorem known_of_findAlias (h : Sound db) {locator : JsString} {known : Subject} (hfind : findAlias db locator = .ok (some known)) :
    Known db known := by
  rw [findAlias_eq h, Except.ok.injEq] at hfind
  obtain ⟨id, -, hrow⟩ := Option.bind_eq_some_iff.1 hfind
  obtain ⟨row, hget, rfl⟩ := Option.map_eq_some_iff.1 hrow
  exact ⟨hget, h.root_root id⟩

/-- What an alias may add to the candidates. -/
def Admitted (db : Db V) (input : SubjectInput) (subject : Subject) : Prop :=
  Known db subject ∧ (subject.identity = input.identity ∨ isLocator subject.identity = true)

theorem mem_addCandidate {candidates : List Subject} {subject c : Subject} (h : c ∈ addCandidate candidates subject) :
    c ∈ candidates ∨ c = subject := by
  unfold addCandidate at h
  split at h
  · obtain ⟨c', hc', heq⟩ := List.mem_map.1 h
    split at heq
    · exact .inr heq.symm
    · rw [← heq]
      exact .inl hc'
  · rcases List.mem_append.1 h with h | h
    · exact .inl h
    · exact .inr (List.mem_singleton.1 h)

/-- The ids of the candidates stay. -/
theorem addCandidate_ids (candidates : List Subject) (subject : Subject) {c : Subject} (h : c ∈ candidates) :
    ∃ c' ∈ addCandidate candidates subject, c'.id = c.id := by
  unfold addCandidate
  split
  · refine ⟨_, List.mem_map.2 ⟨c, h, rfl⟩, ?_⟩
    split
    · exact (‹c.id = subject.id›).symm
    · rfl
  · exact ⟨c, List.mem_append_left _ h, rfl⟩

theorem gather_effect (h : Sound db) {input : SubjectInput} {candidates candidates' : List Subject} {locator : JsString}
    (hrun : gather input candidates locator db = (.ok candidates', db')) :
    db = db' ∧ (∀ c ∈ candidates', c ∈ candidates ∨ Admitted db input c) ∧ ∀ c ∈ candidates, ∃ c' ∈ candidates', c'.id = c.id := by
  obtain ⟨found, _, hread, hrest⟩ := ok_of_bind hrun
  obtain ⟨hfind, rfl⟩ := ok_of_reads hread
  cases found with
  | none =>
    obtain ⟨rfl, rfl⟩ := ok_of_pure hrest
    exact ⟨rfl, fun c hc => .inl hc, fun c hc => ⟨c, hc, rfl⟩⟩
  | some known =>
    obtain ⟨_, _, hthrow, hrest⟩ := ok_of_bind hrest
    obtain ⟨hnot, rfl⟩ := ok_of_throwIf hthrow
    obtain ⟨rfl, rfl⟩ := ok_of_pure hrest
    refine ⟨rfl, fun c hc => ?_, fun c hc => addCandidate_ids candidates known hc⟩
    rcases mem_addCandidate hc with hc | rfl
    · exact .inl hc
    · refine .inr ⟨known_of_findAlias h hfind, ?_⟩
      by_contra hneither
      push Not at hneither
      exact hnot ⟨hneither.1, by simpa using hneither.2⟩

theorem gather_all (h : Sound db) {input : SubjectInput} (aliases : List JsString) {candidates candidates' : List Subject}
    (hrun : aliases.foldlM (gather input) candidates db = (.ok candidates', db')) :
    db = db' ∧ (∀ c ∈ candidates', c ∈ candidates ∨ Admitted db input c) ∧ ∀ c ∈ candidates, ∃ c' ∈ candidates', c'.id = c.id := by
  induction aliases generalizing candidates with
  | nil =>
    obtain ⟨rfl, rfl⟩ := ok_of_pure hrun
    exact ⟨rfl, fun c hc => .inl hc, fun c hc => ⟨c, hc, rfl⟩⟩
  | cons locator rest ih =>
    rw [List.foldlM_cons] at hrun
    obtain ⟨candidates₁, _, hstep, hrest⟩ := ok_of_bind hrun
    obtain ⟨rfl, hnew, hids⟩ := gather_effect h hstep
    obtain ⟨rfl, hnew', hids'⟩ := ih hrest
    refine ⟨rfl, fun c hc => ?_, fun c hc => ?_⟩
    · rcases hnew' c hc with hc | hc
      · exact hnew c hc
      · exact .inr hc
    · obtain ⟨c₁, hc₁, heq⟩ := hids c hc
      obtain ⟨c₂, hc₂, heq'⟩ := hids' c₁ hc₁
      exact ⟨c₂, hc₂, heq'.trans heq⟩

theorem firstById_mem {env : Env V} {candidates : List Subject} {c : Subject} (h : firstById env candidates = some c) :
    c ∈ candidates := by
  unfold firstById at h
  exact List.mem_mergeSort.1 (List.mem_of_head? h)

/-! ## Their overrides agree -/

/-- What an active override is about. -/
def meaning (o : Override V) : V × Mode × Nat := (o.value, o.mode, o.schemaVersion)

theorem content_eq_some {setting : Option (Override V)} {c : V × Mode × Nat} (h : content setting = some c) :
    ∃ o, setting = some o ∧ o.reset = false ∧ meaning o = c := by
  obtain ⟨o, rfl, ho⟩ := Option.bind_eq_some_iff.1 h
  split at ho
  · cases ho
  · rename_i hreset
    exact ⟨o, rfl, by simpa using hreset, Option.some.inj ho⟩

/-- Every active override seen so far says what was saved for its key. -/
def Agreed (seen : List (JsString × Override V)) (saved : Saved V) : Prop :=
  ∀ row ∈ seen, row.2.reset = false → ∃ id s, saved.lookup row.1 = some (id, s) ∧ meaning s = meaning row.2

theorem Agreed.save {seen : List (JsString × Override V)} {saved : Saved V} (h : Agreed seen saved) {row : JsString × Override V}
    {id : Id} (hsame : ∀ id' s, saved.lookup row.1 = some (id', s) → meaning s = meaning row.2) :
    Agreed (seen ++ [row]) ((row.1, id, row.2) :: saved) := by
  intro other hother hactive
  rcases List.mem_append.1 hother with hother | hother
  · obtain ⟨id', s, hlook, hmeaning⟩ := h other hother hactive
    by_cases hkey : other.1 = row.1
    · refine ⟨id, row.2, by simp [hkey], ?_⟩
      rw [hkey] at hlook
      rw [← hsame id' s hlook, hmeaning]
    · exact ⟨id', s, by simpa [List.lookup_cons, beq_eq_false_iff_ne.2 hkey] using hlook, hmeaning⟩
  · rw [List.mem_singleton.1 hother]
    exact ⟨id, row.2, by simp, rfl⟩

theorem Agreed.skip {seen : List (JsString × Override V)} {saved : Saved V} (h : Agreed seen saved) {row : JsString × Override V}
    (hreset : row.2.reset = true) : Agreed (seen ++ [row]) saved := by
  intro other hother hactive
  rcases List.mem_append.1 hother with hother | hother
  · exact h other hother hactive
  · rw [List.mem_singleton.1 hother, hreset] at hactive
    cases hactive

variable [DecidableEq V]

theorem checkRow_effect {subjectId : Id} {saved saved' : Saved V} {row : JsString × Override V} {seen : List (JsString × Override V)}
    (h : Agreed seen saved) (hrun : checkRow subjectId saved row db = (.ok saved', db')) : db = db' ∧ Agreed (seen ++ [row]) saved' := by
  unfold checkRow at hrun
  by_cases hreset : row.2.reset = true
  · rw [if_pos hreset] at hrun
    obtain ⟨rfl, rfl⟩ := ok_of_pure hrun
    exact ⟨rfl, h.skip hreset⟩
  · rw [if_neg hreset] at hrun
    obtain ⟨_, _, hcheck, hrest⟩ := ok_of_bind hrun
    obtain ⟨rfl, rfl⟩ := ok_of_pure hrest
    cases hlook : saved.lookup row.1 with
    | none =>
      rw [hlook] at hcheck
      obtain ⟨-, rfl⟩ := ok_of_pure hcheck
      exact ⟨rfl, h.save (by simp [hlook])⟩
    | some found =>
      obtain ⟨savedId, other⟩ := found
      rw [hlook] at hcheck
      obtain ⟨hnot, rfl⟩ := ok_of_throwIf hcheck
      push Not at hnot
      refine ⟨rfl, h.save fun id' s hs => ?_⟩
      rw [hlook, Option.some.injEq, Prod.mk.injEq] at hs
      rw [← hs.2, meaning, meaning, hnot.1, hnot.2.1, hnot.2.2]

theorem checkRows_effect {subjectId : Id} (rows : List (JsString × Override V)) {saved saved' : Saved V}
    {seen : List (JsString × Override V)} (h : Agreed seen saved)
    (hrun : rows.foldlM (checkRow subjectId) saved db = (.ok saved', db')) : db = db' ∧ Agreed (seen ++ rows) saved' := by
  induction rows generalizing saved seen with
  | nil =>
    obtain ⟨rfl, rfl⟩ := ok_of_pure hrun
    exact ⟨rfl, by simpa using h⟩
  | cons row rest ih =>
    rw [List.foldlM_cons] at hrun
    obtain ⟨saved₁, _, hstep, hrest⟩ := ok_of_bind hrun
    obtain ⟨rfl, hagreed⟩ := checkRow_effect h hstep
    obtain ⟨rfl, hagreed'⟩ := ih hagreed hrest
    exact ⟨rfl, by simpa using hagreed'⟩

/-- The overrides of the candidates, in the order they are compared in. -/
def overridesOf (db : Db V) (candidates : List Subject) : List (JsString × Override V) :=
  candidates.flatMap fun c => db.overrides.under c.id

theorem checkCandidates_effect (h : Sound db) (candidates : List Subject) (hknown : ∀ c ∈ candidates, db.root c.id = c.id)
    {saved saved' : Saved V} {seen : List (JsString × Override V)} (hagreed : Agreed seen saved)
    (hrun : candidates.foldlM checkCandidate saved db = (.ok saved', db')) :
    db = db' ∧ Agreed (seen ++ overridesOf db candidates) saved' := by
  induction candidates generalizing saved seen with
  | nil =>
    obtain ⟨rfl, rfl⟩ := ok_of_pure hrun
    exact ⟨rfl, by simpa [overridesOf] using hagreed⟩
  | cons candidate rest ih =>
    rw [List.foldlM_cons] at hrun
    obtain ⟨saved₁, _, hstep, hrest⟩ := ok_of_bind hrun
    obtain ⟨rows, _, hread, hrows⟩ := ok_of_bind hstep
    obtain ⟨hlist, rfl⟩ := ok_of_reads hread
    have hrowsEq : rows = db.overrides.under candidate.id := by
      unfold listOverrides at hlist
      rw [canonicalId_eq h, hknown candidate List.mem_cons_self] at hlist
      exact (Except.ok.inj hlist).symm
    obtain ⟨rfl, hagreed₁⟩ := checkRows_effect rows hagreed hrows
    obtain ⟨rfl, hagreed'⟩ := ih (fun c hc => hknown c (List.mem_cons_of_mem _ hc)) hagreed₁ hrest
    refine ⟨rfl, ?_⟩
    rw [hrowsEq, List.append_assoc] at hagreed'
    exact hagreed'

theorem agree_of_checked (h : Sound db) {candidates : List Subject} (hknown : ∀ c ∈ candidates, db.root c.id = c.id)
    {saved : Saved V} (hrun : candidates.foldlM checkCandidate [] db = (.ok saved, db')) {p : Id} {ids : List Id}
    (hp : ∃ c ∈ candidates, p = c.id) (hids : ∀ x ∈ ids, ∃ c ∈ candidates, x = c.id) : db = db' ∧ Agree db p ids := by
  have hnone : Agreed ([] : List (JsString × Override V)) [] := by simp [Agreed]
  obtain ⟨rfl, hagreed⟩ := checkCandidates_effect h candidates hknown hnone hrun
  refine ⟨rfl, ?_⟩
  rw [List.nil_append] at hagreed
  have hsaved : ∀ key x c, (x = p ∨ x ∈ ids) → content (db.overrides.get? (x, key)) = some c →
      ∃ id s, saved.lookup key = some (id, s) ∧ meaning s = c := by
    intro key x c hx hc
    obtain ⟨candidate, hcandidate, rfl⟩ : ∃ c ∈ candidates, x = c.id := by
      rcases hx with rfl | hx
      · exact hp
      · exact hids x hx
    obtain ⟨o, ho, hactive, rfl⟩ := content_eq_some hc
    exact hagreed (key, o) (List.mem_flatMap.2 ⟨candidate, hcandidate, Table.mem_under.2 ho⟩) hactive
  intro key x y c c' hx hy hc hc'
  obtain ⟨id, s, hlook, rfl⟩ := hsaved key x c hx hc
  obtain ⟨id', s', hlook', rfl⟩ := hsaved key y c' hy hc'
  rw [hlook, Option.some.injEq, Prod.mk.injEq] at hlook'
  rw [hlook'.2]

end Discover

end Leitwerk.Settings
