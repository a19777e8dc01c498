import Leitwerk.Settings.Service
/-!
# Sound settings databases

A database is `Sound` when its redirects form a forest of merged locators and
its rows refer to subjects that are there. In a sound database a subject id is
read as its `root`. `Advances` says what an operation may do to the settings
read through any id, `Keeps` what it leaves of the subjects that are there.
-/

namespace Leitwerk.Settings

open Forwarding (Forest root)

section Sound

variable {V : Type}

/-- The canonical id of a subject id. -/
def Db.root (db : Db V) (id : Id) : Id := Forwarding.root db.redirects.rows id

/-- The override of a key that is read through a subject id. -/
def Db.read (db : Db V) (id : Id) (key : JsString) : Option (Override V) := db.overrides.get? (db.root id, key)

def revisionOf (setting : Option (Override V)) : Nat := (setting.map Override.revision).getD 0

structure Sound (db : Db V) : Prop where
  forest : Forest db.redirects.rows
  /-- Only repositories known by a locator are merged away. -/
  redirected : ∀ id target, db.redirects.get? id = some target → ∃ row, db.subjects.get? id = some row ∧ isLocator row.identity = true
  targets : ∀ id target, db.redirects.get? id = some target → db.subjects.get? target ≠ none
  aliased : ∀ locator id, db.aliases.get? locator = some id → db.subjects.get? id ≠ none
  owned : ∀ id key setting, db.overrides.get? (id, key) = some setting → db.subjects.get? id ≠ none ∧ 0 < setting.revision
  identities : ∀ id id' row row', db.subjects.get? id = some row → db.subjects.get? id' = some row' →
    row.scopeType = row'.scopeType → row.identity = row'.identity → id = id'

variable {db db' : Db V}

theorem Sound.root_root (h : Sound db) (id : Id) : db.root (db.root id) = db.root id := Forwarding.root_root h.forest id

theorem root_of_unmoved {id : Id} (h : db.redirects.get? id = none) : db.root id = id :=
  Forwarding.root_of_notMem (Table.lookup_eq_none_iff.1 h)

theorem Sound.root_unmoved (h : Sound db) (id : Id) : db.redirects.get? (db.root id) = none :=
  Table.lookup_eq_none_iff.2 (Forwarding.root_notMem h.forest id)

theorem Sound.root_absent (h : Sound db) {id : Id} (habsent : db.subjects.get? id = none) : db.root id = id := by
  apply root_of_unmoved
  cases hmoved : db.redirects.get? id with
  | none => rfl
  | some target =>
    obtain ⟨row, hrow, -⟩ := h.redirected id target hmoved
    simp [habsent] at hrow

/-- A subject that moved is read where it moved to. -/
theorem getSubject_eq (h : Sound db) (id : Id) :
    getSubject db id = .ok ((db.subjects.get? (db.root id)).map fun row => { row with id := db.root id }) := by
  unfold getSubject
  have hwalk : Forwarding.walk (fun id => db.redirects.get? id) (db.redirects.rows.length + 1) [] id = some (db.root id) :=
    Forwarding.walk_eq_root h.forest id
  rw [hwalk]

theorem root_mem_targets (l : List (Id × Id)) (id : Id) : Forwarding.root l id = id ∨ ∃ e ∈ l, Forwarding.root l id = e.2 := by
  induction l using List.reverseRecOn with
  | nil => exact .inl rfl
  | append_singleton l e ih =>
    obtain ⟨a, b⟩ := e
    rw [Forwarding.root_snoc]
    split
    · exact .inr ⟨(a, b), by simp, rfl⟩
    · rcases ih with h | ⟨e, he, h⟩
      · exact .inl h
      · exact .inr ⟨e, by simp [he], h⟩

/-- The canonical subject of one that is there is there. -/
theorem Sound.root_present (h : Sound db) {id : Id} (hid : db.subjects.get? id ≠ none) : db.subjects.get? (db.root id) ≠ none := by
  rcases root_mem_targets db.redirects.rows id with heq | ⟨⟨a, b⟩, he, heq⟩
  · rwa [Db.root, heq]
  · rw [Db.root, heq]
    exact h.targets a b (Table.lookup_of_mem db.redirects.nodup he)

theorem canonicalId_eq (h : Sound db) (id : Id) : canonicalId db id = .ok (db.root id) := by
  unfold canonicalId
  rw [getSubject_eq h]
  cases hrow : db.subjects.get? (db.root id) with
  | some row => rfl
  | none =>
    have habsent : db.subjects.get? id = none := by
      by_contra hid
      exact h.root_present hid hrow
    rw [h.root_absent habsent]
    rfl

theorem getOverride_eq (h : Sound db) (id : Id) (key : JsString) : getOverride db id key = .ok (db.read id key) := by
  unfold getOverride
  rw [canonicalId_eq h]
  rfl

theorem findAlias_eq (h : Sound db) (locator : JsString) :
    findAlias db locator = .ok ((db.aliases.get? locator).bind fun id =>
      (db.subjects.get? (db.root id)).map fun row => { row with id := db.root id }) := by
  unfold findAlias
  cases db.aliases.get? locator with
  | none => rfl
  | some id => exact getSubject_eq h id

/-- The subject found for an identity: the canonical one of the row that has it. -/
theorem findIdentity_eq (h : Sound db) (scopeType identity : JsString) :
    (findIdentity db scopeType identity = .ok none ∧
      ∀ id row, db.subjects.get? id = some row → ¬ (row.scopeType = scopeType ∧ row.identity = identity)) ∨
    ∃ id row row', db.subjects.get? id = some row ∧ row.scopeType = scopeType ∧ row.identity = identity ∧
      db.subjects.get? (db.root id) = some row' ∧ findIdentity db scopeType identity = .ok (some { row' with id := db.root id }) := by
  unfold findIdentity
  cases hfind : db.subjects.rows.find? fun row => row.2.scopeType = scopeType ∧ row.2.identity = identity with
  | none =>
    refine .inl ⟨rfl, fun id row hrow => ?_⟩
    rw [List.find?_eq_none] at hfind
    simpa using hfind _ (Table.mem_of_lookup hrow)
  | some found =>
    obtain ⟨id, row⟩ := found
    have hrow : db.subjects.get? id = some row := Table.lookup_of_mem db.subjects.nodup (List.mem_of_find?_eq_some hfind)
    have hmatch := List.find?_some hfind
    rw [decide_eq_true_iff] at hmatch
    obtain ⟨row', hrow'⟩ := Option.ne_none_iff_exists'.1 (h.root_present (show db.subjects.get? id ≠ none by simp [hrow]))
    refine .inr ⟨id, row, row', hrow, hmatch.1, hmatch.2, hrow', ?_⟩
    dsimp only
    rw [getSubject_eq h, hrow']
    rfl

/-! ## What an operation may do -/

/-- A setting that is read differently has a higher revision. -/
def Advances (db db' : Db V) : Prop :=
  ∀ id key, db'.read id key = db.read id key ∨ revisionOf (db.read id key) < revisionOf (db'.read id key)

theorem Advances.refl (db : Db V) : Advances db db := fun _ _ => .inl rfl

theorem Advances.trans {a b c : Db V} (hab : Advances a b) (hbc : Advances b c) : Advances a c := by
  intro id key
  rcases hab id key with h | h <;> rcases hbc id key with h' | h'
  · exact .inl (h'.trans h)
  · rw [← h]
    exact .inr h'
  · rw [h']
    exact .inr h
  · exact .inr (Nat.lt_trans h h')

/-- Subjects stay, and an identity a provider verified stays as it is. -/
def KeepsIdentities (db db' : Db V) : Prop :=
  ∀ id row, db.subjects.get? id = some row → ∃ row', db'.subjects.get? id = some row' ∧
    (isLocator row.identity = false → row'.identity = row.identity)

theorem KeepsIdentities.refl (db : Db V) : KeepsIdentities db db := fun _ row h => ⟨row, h, fun _ => rfl⟩

theorem KeepsIdentities.trans {a b c : Db V} (hab : KeepsIdentities a b) (hbc : KeepsIdentities b c) : KeepsIdentities a c := by
  intro id row hrow
  obtain ⟨row', hrow', hkeep⟩ := hab id row hrow
  obtain ⟨row'', hrow'', hkeep'⟩ := hbc id row' hrow'
  refine ⟨row'', hrow'', fun hprovider => ?_⟩
  have hsame := hkeep hprovider
  rw [hkeep' (by rw [hsame]; exact hprovider), hsame]

/-- An operation that is safe to make at any time. -/
structure Good (db db' : Db V) : Prop where
  sound : Sound db'
  advances : Advances db db'
  identities : KeepsIdentities db db'

theorem Good.refl (h : Sound db) : Good db db := ⟨h, Advances.refl db, KeepsIdentities.refl db⟩

theorem Good.trans {a b c : Db V} (hab : Good a b) (hbc : Good b c) : Good a c :=
  ⟨hbc.sound, hab.advances.trans hbc.advances, hab.identities.trans hbc.identities⟩

end Sound

end Leitwerk.Settings
