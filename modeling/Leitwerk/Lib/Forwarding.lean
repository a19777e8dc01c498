import Leitwerk.Lib.Table
import Mathlib.Data.List.Induction
/-!
# Forwarding addresses

Entries `(a, b)` say that `a` has moved to `b`. When every entry was added from
an address that had not moved to another one that had not moved, the entries
form a forest: `root` folds them in the order they were added, and looking
entries up one after the other arrives there (`walk_eq_root`).
-/

namespace Forwarding

variable {κ : Type} [DecidableEq κ]

/-- Look entries up until there is none; `none` when an address comes up twice. -/
def walk (next : κ → Option κ) : Nat → List κ → κ → Option κ
  | 0, _, _ => none
  | fuel + 1, visited, k =>
    if k ∈ visited then none
    else
      match next k with
      | none => some k
      | some k' => walk next fuel (k :: visited) k'

/-- Entries each of which was added between two addresses that had not moved. -/
inductive Forest : List (κ × κ) → Prop
  | nil : Forest []
  | snoc {l a b} : Forest l → a ∉ l.map Prod.fst → b ∉ l.map Prod.fst → a ≠ b → Forest (l ++ [(a, b)])

/-- Where an address has moved to. -/
def root (l : List (κ × κ)) (k : κ) : κ := l.foldl (fun c e => if c = e.1 then e.2 else c) k

@[simp] theorem root_nil (k : κ) : root [] k = k := rfl

theorem root_snoc (l : List (κ × κ)) (a b k : κ) : root (l ++ [(a, b)]) k = if root l k = a then b else root l k := by
  unfold root
  rw [List.foldl_append]
  rfl

/-- The address a walk ends at has not moved. -/
theorem root_notMem {l : List (κ × κ)} (h : Forest l) (k : κ) : root l k ∉ l.map Prod.fst := by
  induction h with
  | nil => simp
  | @snoc l a b _ ha hb hne ih =>
    rw [root_snoc, List.map_append, List.mem_append, not_or]
    split
    · exact ⟨hb, by simpa using Ne.symm hne⟩
    · rename_i hroot
      exact ⟨ih, by simpa using hroot⟩

theorem root_of_notMem {l : List (κ × κ)} {k : κ} (h : k ∉ l.map Prod.fst) : root l k = k := by
  induction l using List.reverseRecOn with
  | nil => rfl
  | append_singleton l e ih =>
    rw [List.map_append, List.mem_append, not_or] at h
    rw [root_snoc, ih h.1, if_neg (by simpa using h.2)]

theorem root_root {l : List (κ × κ)} (h : Forest l) (k : κ) : root l (root l k) = root l k :=
  root_of_notMem (root_notMem h k)

/-- The addresses a walk passes, to one that has not moved. -/
inductive Chain (next : κ → Option κ) : κ → Nat → κ → Prop
  | done {k} : next k = none → Chain next k 0 k
  | move {k k' n r} : next k = some k' → Chain next k' n r → Chain next k (n + 1) r

omit [DecidableEq κ] in
theorem Chain.unique {next : κ → Option κ} {k r r' : κ} {n n' : Nat} (h : Chain next k n r) (h' : Chain next k n' r') : n = n' := by
  induction h generalizing n' with
  | done hk =>
    cases h' with
    | done => rfl
    | move hk' => simp [hk] at hk'
  | move hk _ ih =>
    cases h' with
    | done hk' => simp [hk] at hk'
    | move hk' h' =>
      rw [hk, Option.some.injEq] at hk'
      subst hk'
      rw [ih h']

/-- An address that a walk has passed is farther from its end, so it does not come up again. -/
theorem walk_of_chain {next : κ → Option κ} {k r : κ} {n fuel : Nat} {visited : List κ} (h : Chain next k n r) (hfuel : n < fuel)
    (hvisited : ∀ v ∈ visited, ∃ m, Chain next v m r ∧ n < m) : walk next fuel visited k = some r := by
  have hnew : ∀ {k n}, Chain next k n r → (∀ v ∈ visited, ∃ m, Chain next v m r ∧ n < m) → k ∉ visited := by
    intro k n hk hv hmem
    obtain ⟨m, hm, hlt⟩ := hv k hmem
    have heq := hk.unique hm
    omega
  induction h generalizing fuel visited with
  | done hk =>
    obtain _ | fuel := fuel
    · omega
    rw [walk, if_neg (hnew (.done hk) hvisited), hk]
  | @move k k' n r hk hrest ih =>
    obtain _ | fuel := fuel
    · omega
    rw [walk, if_neg (hnew (.move hk hrest) hvisited), hk]
    have hvisited' : ∀ v ∈ k :: visited, ∃ m, Chain next v m r ∧ n < m := by
      intro v hv
      rcases List.mem_cons.1 hv with rfl | hv
      · exact ⟨n + 1, .move hk hrest, by omega⟩
      · obtain ⟨m, hm, hlt⟩ := hvisited v hv
        exact ⟨m, hm, by omega⟩
    refine ih (by omega) hvisited' ?_
    intro j m hj hv hmem
    obtain ⟨m', hm', hlt⟩ := hv j hmem
    have heq := hj.unique hm'
    omega

theorem chain_snoc {l : List (κ × κ)} {a b k r : κ} {n : Nat} (hb : b ∉ l.map Prod.fst) (ha : a ∉ l.map Prod.fst) (hne : a ≠ b)
    (h : Chain (fun k => l.lookup k) k n r) :
    ∃ m, m ≤ n + 1 ∧ Chain (fun k => (l ++ [(a, b)]).lookup k) k m (if r = a then b else r) := by
  have hlook : ∀ k, (l ++ [(a, b)]).lookup k = (l.lookup k).or (if k = a then some b else none) := by
    intro k
    rw [Table.lookup_append]
    by_cases hk : k = a
    · simp [hk]
    · simp [List.lookup_cons, hk, beq_eq_false_iff_ne.2 hk]
  induction h with
  | @done k hk =>
    split
    · rename_i hka
      subst hka
      have hmove : (l ++ [(k, b)]).lookup k = some b := by simp [hlook, hk]
      have hend : (l ++ [(k, b)]).lookup b = none := by simp [hlook, Table.lookup_eq_none_iff.2 hb, Ne.symm hne]
      exact ⟨1, by omega, .move hmove (.done hend)⟩
    · rename_i hka
      exact ⟨0, by omega, .done (by simp [hlook, hk, hka])⟩
  | move hk _ ih =>
    obtain ⟨m, hm, hchain⟩ := ih
    exact ⟨m + 1, by omega, .move (by simp [hlook, hk]) hchain⟩

theorem chain_of_forest {l : List (κ × κ)} (h : Forest l) (k : κ) :
    ∃ n, n ≤ l.length ∧ Chain (fun k => l.lookup k) k n (root l k) := by
  induction h with
  | nil => exact ⟨0, by simp, .done rfl⟩
  | @snoc l a b _ ha hb hne ih =>
    obtain ⟨n, hn, hchain⟩ := ih
    obtain ⟨m, hm, hchain'⟩ := chain_snoc hb ha hne hchain
    rw [root_snoc]
    exact ⟨m, by simp; omega, hchain'⟩

/-- Looking entries up arrives where they lead. -/
theorem walk_eq_root {l : List (κ × κ)} (h : Forest l) (k : κ) :
    walk (fun k => l.lookup k) (l.length + 1) [] k = some (root l k) := by
  obtain ⟨n, hn, hchain⟩ := chain_of_forest h k
  exact walk_of_chain hchain (by omega) (by simp)

end Forwarding
