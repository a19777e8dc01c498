import Mathlib.Data.List.Basic
import Mathlib.Logic.Relation
/-!
# Following paths through links

A path is followed hop by hop from a directory: a name that is a link is
replaced by the hops of its target before anything after it is read, so that a
later step upwards leaves the directory the link leads to. `Step` is one such
move, `Ends` a run of them that reads the whole path, and `Walk` the same run as
a tree that counts the links it expands. The two agree (`ends_iff_walk`), and a
walk has one end and one count (`Walk.unique`).
-/

/-- What a component of a path asks for. -/
inductive Hop (α : Type)
  | stay
  | up
  | name (a : α)
  deriving DecidableEq

namespace Following

variable {α : Type}

/-- What stands at a path: nothing that leads elsewhere, a link that may not be
followed, or the hops of a link's target. -/
abbrev Links (α : Type) := List α → Option (Option (List (Hop α)))

/-- A directory below the root, and what is left to read. -/
abbrev Place (α : Type) := List α × List (Hop α)

inductive Step (links : Links α) : Place α → Place α → Prop
  | stay {r todo} : Step links (r, .stay :: todo) (r, todo)
  | up {r todo} : r ≠ [] → Step links (r, .up :: todo) (r.dropLast, todo)
  | name {r a todo} : links (r ++ [a]) = none → Step links (r, .name a :: todo) (r ++ [a], todo)
  | link {r a t todo} : links (r ++ [a]) = some (some t) → Step links (r, .name a :: todo) (r, t ++ todo)

/-- The path is read to its end in finitely many steps. -/
def Ends (links : Links α) (p : Place α) (d : List α) : Prop := Relation.ReflTransGen (Step links) p (d, [])

/-- `Walk links n r hops d`: the hops lead from `r` to `d` and `n` links are expanded on the way. -/
inductive Walk (links : Links α) : Nat → List α → List (Hop α) → List α → Prop
  | done {r} : Walk links 0 r [] r
  | stay {n r rest d} : Walk links n r rest d → Walk links n r (.stay :: rest) d
  | up {n r rest d} : r ≠ [] → Walk links n r.dropLast rest d → Walk links n r (.up :: rest) d
  | name {n r a rest d} : links (r ++ [a]) = none → Walk links n (r ++ [a]) rest d → Walk links n r (.name a :: rest) d
  | link {n m r a t mid rest d} : links (r ++ [a]) = some (some t) → Walk links n r t mid → Walk links m mid rest d →
      Walk links (n + m + 1) r (.name a :: rest) d

variable {links : Links α}

/-! ## Runs and walks -/

theorem Step.append {p q : Place α} (h : Step links p q) (more : List (Hop α)) :
    Step links (p.1, p.2 ++ more) (q.1, q.2 ++ more) := by
  cases h with
  | stay => exact .stay
  | up h => exact .up h
  | name h => exact .name h
  | link h =>
    rw [List.append_assoc]
    exact .link h

/-- What comes after waits until the run is over. -/
theorem run_append {p q : Place α} (h : Relation.ReflTransGen (Step links) p q) (more : List (Hop α)) :
    Relation.ReflTransGen (Step links) (p.1, p.2 ++ more) (q.1, q.2 ++ more) := by
  induction h with
  | refl => exact .refl
  | tail _ hstep ih => exact ih.tail (hstep.append more)

theorem Walk.ends {n : Nat} {r d : List α} {hops : List (Hop α)} (h : Walk links n r hops d) : Ends links (r, hops) d := by
  induction h with
  | done => exact .refl
  | stay _ ih => exact .head .stay ih
  | up hr _ ih => exact .head (.up hr) ih
  | name hn _ ih => exact .head (.name hn) ih
  | @link _ _ _ _ _ _ rest _ hl _ _ iht ihrest => exact .head (.link hl) ((run_append iht rest).trans ihrest)

/-- A walk over two parts goes through the end of the first. -/
theorem Walk.split {n : Nat} {r d : List α} {a b : List (Hop α)} (h : Walk links n r (a ++ b) d) :
    ∃ n₁ n₂ mid, Walk links n₁ r a mid ∧ Walk links n₂ mid b d ∧ n = n₁ + n₂ := by
  induction a generalizing n r with
  | nil => exact ⟨0, n, r, .done, h, by omega⟩
  | cons hop a ih =>
    cases h with
    | stay h =>
      obtain ⟨n₁, n₂, mid, h₁, h₂, rfl⟩ := ih h
      exact ⟨n₁, n₂, mid, .stay h₁, h₂, rfl⟩
    | up hr h =>
      obtain ⟨n₁, n₂, mid, h₁, h₂, rfl⟩ := ih h
      exact ⟨n₁, n₂, mid, .up hr h₁, h₂, rfl⟩
    | name hn h =>
      obtain ⟨n₁, n₂, mid, h₁, h₂, rfl⟩ := ih h
      exact ⟨n₁, n₂, mid, .name hn h₁, h₂, rfl⟩
    | link hl ht h =>
      obtain ⟨n₁, n₂, mid, h₁, h₂, rfl⟩ := ih h
      exact ⟨_, n₂, mid, .link hl ht h₁, h₂, by omega⟩

theorem walk_of_ends {p : Place α} {d : List α} (h : Ends links p d) : ∃ n, Walk links n p.1 p.2 d := by
  unfold Ends at h
  induction h using Relation.ReflTransGen.head_induction_on with
  | refl => exact ⟨0, .done⟩
  | head hstep _ ih =>
    obtain ⟨n, hw⟩ := ih
    cases hstep with
    | stay => exact ⟨n, .stay hw⟩
    | up hr => exact ⟨n, .up hr hw⟩
    | name hn => exact ⟨n, .name hn hw⟩
    | link hl =>
      obtain ⟨n₁, n₂, mid, h₁, h₂, rfl⟩ := hw.split
      exact ⟨_, .link hl h₁ h₂⟩

theorem ends_iff_walk {r d : List α} {hops : List (Hop α)} : Ends links (r, hops) d ↔ ∃ n, Walk links n r hops d :=
  ⟨walk_of_ends, fun ⟨_, h⟩ => h.ends⟩

/-! ## One end -/

theorem Walk.unique {n n' : Nat} {r d d' : List α} {hops : List (Hop α)} (h : Walk links n r hops d)
    (h' : Walk links n' r hops d') : n = n' ∧ d = d' := by
  induction h generalizing n' d' with
  | done =>
    cases h'
    exact ⟨rfl, rfl⟩
  | stay _ ih =>
    cases h' with
    | stay h' => exact ih h'
  | up _ _ ih =>
    cases h' with
    | up _ h' => exact ih h'
  | name hn _ ih =>
    cases h' with
    | name _ h' => exact ih h'
    | link hl => simp [hn] at hl
  | link hl _ _ iht ihrest =>
    cases h' with
    | name hn => simp [hn] at hl
    | link hl' ht' h' =>
      rw [hl, Option.some.injEq, Option.some.injEq] at hl'
      subst hl'
      obtain ⟨rfl, rfl⟩ := iht ht'
      obtain ⟨rfl, rfl⟩ := ihrest h'
      exact ⟨rfl, rfl⟩

/-- A walk stays among names that its start, its hops and the targets of the links are made of. -/
theorem Walk.names {P : α → Prop} (hlinks : ∀ p t, links p = some (some t) → ∀ a, Hop.name a ∈ t → P a) {n : Nat}
    {r d : List α} {hops : List (Hop α)} (h : Walk links n r hops d) (hr : ∀ a ∈ r, P a)
    (hhops : ∀ a, Hop.name a ∈ hops → P a) : ∀ a ∈ d, P a := by
  induction h with
  | done => exact hr
  | stay _ ih => exact ih hr fun a ha => hhops a (List.mem_cons_of_mem _ ha)
  | up _ _ ih =>
    exact ih (fun a ha => hr a (List.dropLast_subset _ ha)) fun a ha => hhops a (List.mem_cons_of_mem _ ha)
  | name _ _ ih =>
    refine ih (fun a ha => ?_) fun a ha => hhops a (List.mem_cons_of_mem _ ha)
    rcases List.mem_append.1 ha with ha | ha
    · exact hr a ha
    · rw [List.mem_singleton.1 ha]
      exact hhops _ List.mem_cons_self
  | link hl _ _ iht ihrest =>
    exact ihrest (iht hr (hlinks _ _ hl)) fun a ha => hhops a (List.mem_cons_of_mem _ ha)

end Following
