import Mathlib.Data.List.Nodup
import Mathlib.Data.List.Chain
import Mathlib.Data.List.Perm.Subperm
import Mathlib.Order.Basic
/-!
# Growing a forest from parent links

Nodes name their parents by key. `grow` builds the tree below a node and skips
what was visited, so that it ends on cycles, too; `each` grows one tree after
the other, `rest` those that are not visited yet. A node is below its one parent,
so what is grown below one child never reaches another: every node occurs once,
below its parent where it is no root, and all that is below a visited node is
visited.
-/

namespace Growing

variable {α κ : Type}

/-! ## Trees -/

inductive Rose (α : Type)
  | node (value : α) (children : List (Rose α))

def Rose.value : Rose α → α
  | .node a _ => a

def Rose.children : Rose α → List (Rose α)
  | .node _ ts => ts

mutual

/-- The values of a tree, each before those below it. -/
def Rose.flatten : Rose α → List α
  | .node a ts => a :: flattenAll ts

def flattenAll : List (Rose α) → List α
  | [] => []
  | t :: ts => t.flatten ++ flattenAll ts

end

/-- The values from one of these trees down to a node. -/
inductive Leads : List (Rose α) → List α → Prop
  | here {ts : List (Rose α)} {t : Rose α} (mem : t ∈ ts) : Leads ts [t.value]
  | under {ts : List (Rose α)} {t : Rose α} {path : List α} (mem : t ∈ ts) (path_leads : Leads t.children path) :
    Leads ts (t.value :: path)

@[elab_as_elim]
theorem Rose.induction {motive : Rose α → Prop} (node : ∀ a ts, (∀ t ∈ ts, motive t) → motive (.node a ts)) : ∀ t, motive t
  | .node a ts => node a ts fun t _ => Rose.induction node t
termination_by t => sizeOf t
decreasing_by
  have := List.sizeOf_lt_of_mem ‹t ∈ ts›
  simp only [Rose.node.sizeOf_spec]
  omega

@[simp] theorem flatten_node (a : α) (ts : List (Rose α)) : (Rose.node a ts).flatten = a :: flattenAll ts := by
  rw [Rose.flatten]

theorem mem_flattenAll {ts : List (Rose α)} {x : α} : x ∈ flattenAll ts ↔ ∃ t ∈ ts, x ∈ t.flatten := by
  induction ts with
  | nil => simp [flattenAll]
  | cons t ts ih => simp [flattenAll, ih]

theorem flattenAll_append (ts us : List (Rose α)) : flattenAll (ts ++ us) = flattenAll ts ++ flattenAll us := by
  induction ts with
  | nil => rfl
  | cons t ts ih => rw [List.cons_append, flattenAll, flattenAll, ih, List.append_assoc]

theorem value_mem_flatten (t : Rose α) : t.value ∈ t.flatten := by
  cases t with
  | node a ts => simp [Rose.value]

theorem mem_flatten {t : Rose α} {x : α} : x ∈ t.flatten ↔ x = t.value ∨ x ∈ flattenAll t.children := by
  cases t with
  | node a ts => simp [Rose.value, Rose.children]

/-- A path leads to every node. -/
theorem exists_leads {ts : List (Rose α)} {x : α} (h : x ∈ flattenAll ts) : ∃ path, Leads ts path ∧ path.getLast? = some x := by
  obtain ⟨t, ht, hx⟩ := mem_flattenAll.1 h
  clear h
  induction t using Rose.induction generalizing ts with
  | node a us ih =>
    rcases mem_flatten.1 hx with rfl | hx
    · exact ⟨_, .here ht, rfl⟩
    · obtain ⟨u, hu, hxu⟩ := mem_flattenAll.1 hx
      obtain ⟨path, hpath, hlast⟩ := ih u hu hu hxu
      refine ⟨a :: path, .under ht hpath, ?_⟩
      rw [List.getLast?_cons, hlast]
      rfl

/-- Where a path comes from. -/
theorem Leads.head {ts : List (Rose α)} {path : List α} (h : Leads ts path) : ∃ t ∈ ts, path.head? = some t.value := by
  cases h with
  | here hmem => exact ⟨_, hmem, rfl⟩
  | under hmem _ => exact ⟨_, hmem, rfl⟩

theorem Leads.mem {ts : List (Rose α)} {path : List α} (h : Leads ts path) {x : α} (hx : x ∈ path) : x ∈ flattenAll ts := by
  induction h with
  | here hmem =>
    rw [List.mem_singleton.1 hx]
    exact mem_flattenAll.2 ⟨_, hmem, value_mem_flatten _⟩
  | under hmem _ ih =>
    refine mem_flattenAll.2 ⟨_, hmem, mem_flatten.2 ?_⟩
    exact (List.mem_cons.1 hx).imp_right ih

/-! ## Growing -/

/-- A step for each of these, one after the other. -/
def each {τ : Type} (step : α → List κ → Option (τ × List κ)) : List α → List κ → Option (List τ × List κ)
  | [], visited => some ([], visited)
  | a :: as, visited =>
    (step a visited).bind fun p => (each step as p.2).map fun q => (p.1 :: q.1, q.2)

variable [DecidableEq κ] (key : α → κ)

/-- Those that are not visited. -/
def fresh (visited : List κ) (as : List α) : List α := as.filter fun a => key a ∉ visited

/-- The tree below a node, and what is visited then. What was visited when the children were listed is skipped. -/
def grow (down : α → List α) : ℕ → α → List κ → Option (Rose α × List κ)
  | 0, _, _ => none
  | fuel + 1, a, visited =>
    (each (grow down fuel) (fresh key (key a :: visited) (down a)) (key a :: visited)).map fun p => (.node a p.1, p.2)

/-- A step for each of these that is not visited by then. -/
def rest {τ : Type} (step : α → List κ → Option (τ × List κ)) : List α → List κ → Option (List τ × List κ)
  | [], visited => some ([], visited)
  | a :: as, visited =>
    if key a ∈ visited then rest step as visited
    else (step a visited).bind fun p => (rest step as p.2).map fun q => (p.1 :: q.1, q.2)

omit [DecidableEq κ] in
theorem each_map {τ σ : Type} (f : τ → σ) (step : α → List κ → Option (τ × List κ)) (as : List α) (visited : List κ) :
    (each step as visited).map (fun p => (p.1.map f, p.2)) =
      each (fun a visited => (step a visited).map fun p => (f p.1, p.2)) as visited := by
  induction as generalizing visited with
  | nil => rfl
  | cons a as ih =>
    rw [each, each]
    cases step a visited with
    | none => rfl
    | some p =>
      rw [Option.map_some, Option.bind_some, Option.bind_some, ← ih p.2]
      cases each step as p.2 <;> rfl

theorem rest_map {τ σ : Type} (f : τ → σ) (step : α → List κ → Option (τ × List κ)) (as : List α) (visited : List κ) :
    (rest key step as visited).map (fun p => (p.1.map f, p.2)) =
      rest key (fun a visited => (step a visited).map fun p => (f p.1, p.2)) as visited := by
  induction as generalizing visited with
  | nil => rfl
  | cons a as ih =>
    rw [rest, rest]
    split
    · exact ih visited
    · cases step a visited with
      | none => rfl
      | some p =>
        rw [Option.map_some, Option.bind_some, Option.bind_some, ← ih p.2]
        cases rest key step as p.2 <;> rfl

/-! ## What is grown -/

variable (up : α → Option κ) (nodes : List α)

/-- Children name their parent, and stand in the order of the nodes. -/
inductive Shaped : Rose α → Prop
  | node {a : α} {ts : List (Rose α)} (linked : ∀ t ∈ ts, up t.value = some (key a)) (order : (ts.map Rose.value).Sublist nodes)
    (children_shaped : ∀ t ∈ ts, Shaped t) : Shaped (.node a ts)

/-- What was grown from `as` after `visited`, and what is visited now. -/
structure Grown (as : List α) (visited : List κ) (ts : List (Rose α)) (visited' : List κ) : Prop where
  values : ts.map Rose.value = as
  shaped : ∀ t ∈ ts, Shaped key up nodes t
  members : ∀ x ∈ flattenAll ts, x ∈ nodes
  fresh : ∀ x ∈ flattenAll ts, key x ∉ visited
  nodup : ((flattenAll ts).map key).Nodup
  visited_iff : ∀ k, k ∈ visited' ↔ k ∈ visited ∨ k ∈ (flattenAll ts).map key
  closed : ∀ x ∈ flattenAll ts, ∀ c ∈ nodes, up c = some (key x) → key c ∈ visited'

variable {key up nodes}

omit [DecidableEq κ] in
/-- Every node of a tree but its root is below its parent. -/
theorem Shaped.parent {t : Rose α} (h : Shaped key up nodes t) {x : α} (hx : x ∈ t.flatten) :
    x = t.value ∨ ∃ p ∈ t.flatten, up x = some (key p) := by
  induction h with
  | @node a ts hlinked _ _ ih =>
    rcases mem_flatten.1 hx with rfl | hx
    · exact .inl rfl
    · right
      obtain ⟨u, hu, hxu⟩ := mem_flattenAll.1 hx
      rcases ih u hu hxu with rfl | ⟨p, hp, hup⟩
      · exact ⟨a, by simp, hlinked u hu⟩
      · exact ⟨p, mem_flatten.2 (.inr (mem_flattenAll.2 ⟨u, hu, hp⟩)), hup⟩

omit [DecidableEq κ] in
/-- Paths go from parents to children. -/
theorem Leads.chain {ts : List (Rose α)} {path : List α} (h : Leads ts path) (hts : ∀ t ∈ ts, Shaped key up nodes t) :
    path.IsChain fun p c => up c = some (key p) := by
  induction h with
  | here _ => exact List.isChain_singleton _
  | @under ts t path hmem hpath ih =>
    obtain ⟨hlinked, -, hshaped⟩ := hts t hmem
    refine List.isChain_cons.2 ⟨fun c hc => ?_, ih hshaped⟩
    obtain ⟨u, hu, hhead⟩ := hpath.head
    rw [hhead] at hc
    obtain rfl := Option.some.inj hc
    exact hlinked u hu

variable (key nodes) in
/-- How many nodes are not visited. -/
def unvisited (visited : List κ) : ℕ := nodes.countP fun a => key a ∉ visited

theorem unvisited_le {visited visited' : List κ} (h : ∀ k ∈ visited, k ∈ visited') :
    unvisited key nodes visited' ≤ unvisited key nodes visited := by
  apply List.countP_mono_left
  intro a _ ha
  simp only [decide_eq_true_eq] at ha ⊢
  exact fun hmem => ha (h _ hmem)

theorem unvisited_lt {visited : List κ} {a : α} (ha : a ∈ nodes) (hnew : key a ∉ visited) :
    unvisited key nodes (key a :: visited) < unvisited key nodes visited := by
  unfold unvisited
  obtain ⟨l, l', rfl⟩ := List.append_of_mem ha
  have hless : ∀ nodes : List α, unvisited key nodes (key a :: visited) ≤ unvisited key nodes visited := fun nodes =>
    unvisited_le fun k hk => List.mem_cons_of_mem _ hk
  have hl := hless l
  have hl' := hless l'
  unfold unvisited at hl hl'
  simp only [List.countP_append, List.countP_cons, List.mem_cons, true_or, not_true_eq_false, decide_false, hnew,
    not_false_eq_true, decide_true, if_true, Bool.false_eq_true, if_false] at hl hl' ⊢
  omega

variable (key up nodes) in
/-- Keys tell the nodes apart, and the children of a node are those that name it, in the order of the nodes. -/
structure Family (down : α → List α) : Prop where
  keyed : (nodes.map key).Nodup
  down_eq : ∀ a ∈ nodes, down a = nodes.filter fun c => up c = some (key a)

omit [DecidableEq κ] in
theorem eq_of_key (h : (nodes.map key).Nodup) {a b : α} (ha : a ∈ nodes) (hb : b ∈ nodes) (heq : key a = key b) : a = b :=
  List.inj_on_of_nodup_map h ha hb heq

omit [DecidableEq κ] in
theorem Grown.nil (visited : List κ) : Grown key up nodes [] visited [] visited := by
  constructor <;> simp [flattenAll]

omit [DecidableEq κ] in
theorem Grown.visited_subset {as : List α} {visited visited' : List κ} {ts : List (Rose α)}
    (h : Grown key up nodes as visited ts visited') : ∀ k ∈ visited, k ∈ visited' := fun k hk => (h.visited_iff k).2 (.inl hk)

omit [DecidableEq κ] in
theorem Grown.key_mem {as : List α} {visited visited' : List κ} {ts : List (Rose α)} (h : Grown key up nodes as visited ts visited')
    {x : α} (hx : x ∈ flattenAll ts) : key x ∈ visited' := (h.visited_iff _).2 (.inr (List.mem_map_of_mem hx))

omit [DecidableEq κ] in
/-- What is grown first and what is grown then. -/
theorem Grown.append {as bs : List α} {visited visited₁ visited₂ : List κ} {ts us : List (Rose α)}
    (h : Grown key up nodes as visited ts visited₁) (h' : Grown key up nodes bs visited₁ us visited₂) :
    Grown key up nodes (as ++ bs) visited (ts ++ us) visited₂ where
  values := by rw [List.map_append, h.values, h'.values]
  shaped t ht := (List.mem_append.1 ht).elim (h.shaped t) (h'.shaped t)
  members x hx := by
    rw [flattenAll_append] at hx
    exact (List.mem_append.1 hx).elim (h.members x) (h'.members x)
  fresh x hx := by
    rw [flattenAll_append] at hx
    rcases List.mem_append.1 hx with hx | hx
    · exact h.fresh x hx
    · exact fun hmem => h'.fresh x hx (h.visited_subset _ hmem)
  nodup := by
    rw [flattenAll_append, List.map_append]
    refine h.nodup.append h'.nodup fun k hk hk' => ?_
    obtain ⟨x, hx, rfl⟩ := List.mem_map.1 hk'
    exact h'.fresh x hx ((h.visited_iff _).2 (.inr hk))
  visited_iff k := by
    rw [h'.visited_iff, h.visited_iff, flattenAll_append, List.map_append, List.mem_append, or_assoc]
  closed x hx c hc hup := by
    rw [flattenAll_append] at hx
    rcases List.mem_append.1 hx with hx | hx
    · exact h'.visited_subset _ (h.closed x hx c hc hup)
    · exact h'.closed x hx c hc hup

omit [DecidableEq κ] in
/-- A node that was not there before, under the trees that grew since. -/
theorem Grown.node {a : α} {as : List α} {visited visited' : List κ} {ts : List (Rose α)}
    (h : Grown key up nodes as (key a :: visited) ts visited') (ha : a ∈ nodes) (hnew : key a ∉ visited)
    (hlinked : ∀ c ∈ as, up c = some (key a)) (horder : as.Sublist nodes)
    (hall : ∀ c ∈ nodes, up c = some (key a) → key c ∈ key a :: visited ∨ c ∈ as) :
    Grown key up nodes [a] visited [.node a ts] visited' where
  values := rfl
  shaped t ht := by
    rw [List.mem_singleton.1 ht]
    refine .node (fun t ht => hlinked _ ?_) (h.values ▸ horder) h.shaped
    rw [← h.values]
    exact List.mem_map_of_mem ht
  members x hx := by
    simp only [flattenAll, flatten_node, List.append_nil, List.mem_cons] at hx
    rcases hx with rfl | hx
    · exact ha
    · exact h.members x hx
  fresh x hx := by
    simp only [flattenAll, flatten_node, List.append_nil, List.mem_cons] at hx
    rcases hx with rfl | hx
    · exact hnew
    · exact fun hmem => h.fresh x hx (List.mem_cons_of_mem _ hmem)
  nodup := by
    simp only [flattenAll, flatten_node, List.append_nil, List.map_cons]
    refine List.nodup_cons.2 ⟨fun hmem => ?_, h.nodup⟩
    obtain ⟨x, hx, hkey⟩ := List.mem_map.1 hmem
    exact h.fresh x hx (hkey ▸ List.mem_cons_self)
  visited_iff k := by
    simp only [flattenAll, flatten_node, List.append_nil, List.map_cons]
    rw [h.visited_iff, List.mem_cons, List.mem_cons, or_assoc, or_left_comm]
  closed x hx c hc hup := by
    simp only [flattenAll, flatten_node, List.append_nil, List.mem_cons] at hx
    rcases hx with rfl | hx
    · rcases hall c hc hup with hold | hmem
      · exact h.visited_subset _ hold
      · rw [← h.values] at hmem
        obtain ⟨t, ht, rfl⟩ := List.mem_map.1 hmem
        exact h.key_mem (mem_flattenAll.2 ⟨t, ht, value_mem_flatten t⟩)
    · exact h.closed x hx c hc hup

variable (key up nodes) in
/-- A step that grows the tree of a node, as long as fewer nodes than the bound are not visited. -/
def Grows (step : α → List κ → Option (Rose α × List κ)) (bound : ℕ) : Prop :=
  ∀ a visited, a ∈ nodes → key a ∉ visited → unvisited key nodes visited < bound →
    ∃ t visited', step a visited = some (t, visited') ∧ Grown key up nodes [a] visited [t] visited'

/-- Nodes whose parents are visited are not reached from each other. -/
theorem each_grown {step : α → List κ → Option (Rose α × List κ)} {bound : ℕ} (hkeyed : (nodes.map key).Nodup)
    (hstep : Grows key up nodes step bound) {as : List α} {visited : List κ} (hnodup : (as.map key).Nodup)
    (hnew : ∀ a ∈ as, a ∈ nodes ∧ key a ∉ visited)
    (hparents : ∀ a ∈ as, ∀ p ∈ nodes, up a = some (key p) → key p ∈ visited) (hbound : unvisited key nodes visited < bound) :
    ∃ ts visited', each step as visited = some (ts, visited') ∧ Grown key up nodes as visited ts visited' := by
  induction as generalizing visited with
  | nil => exact ⟨[], visited, rfl, .nil visited⟩
  | cons a as ih =>
    obtain ⟨hother, hnodup⟩ := List.nodup_cons.1 hnodup
    obtain ⟨hmem, hfresh⟩ := hnew a List.mem_cons_self
    obtain ⟨t, visited₁, ht, hgrown⟩ := hstep a visited hmem hfresh hbound
    have hvalue : t.value = a := by simpa using hgrown.values
    have hnew₁ : ∀ b ∈ as, b ∈ nodes ∧ key b ∉ visited₁ := by
      intro b hb
      obtain ⟨hbmem, hbnew⟩ := hnew b (List.mem_cons_of_mem _ hb)
      refine ⟨hbmem, fun hvisited => ?_⟩
      rcases (hgrown.visited_iff _).1 hvisited with hold | hgrew
      · exact hbnew hold
      · obtain ⟨x, hx, hkey⟩ := List.mem_map.1 hgrew
        obtain rfl := eq_of_key hkeyed (hgrown.members x hx) hbmem hkey
        have hxt : x ∈ t.flatten := by simpa [flattenAll] using hx
        rcases (hgrown.shaped t List.mem_cons_self).parent hxt with heq | ⟨p, hp, hup⟩
        · exact hother (List.mem_map.2 ⟨x, hb, by rw [heq, hvalue]⟩)
        · have hpt : p ∈ flattenAll [t] := by simpa [flattenAll] using hp
          exact hgrown.fresh p hpt (hparents x (List.mem_cons_of_mem _ hb) p (hgrown.members p hpt) hup)
    obtain ⟨ts, visited₂, hts, hrest⟩ := ih hnodup hnew₁
      (fun b hb p hp hup => hgrown.visited_subset _ (hparents b (List.mem_cons_of_mem _ hb) p hp hup))
      (Nat.lt_of_le_of_lt (unvisited_le hgrown.visited_subset) hbound)
    exact ⟨t :: ts, visited₂, by rw [each, ht, Option.bind_some, hts, Option.map_some], hgrown.append hrest⟩

theorem grow_grows {down : α → List α} (h : Family key up nodes down) (fuel : ℕ) :
    Grows key up nodes (grow key down fuel) fuel := by
  induction fuel with
  | zero => exact fun a visited _ _ hbound => absurd hbound (Nat.not_lt_zero _)
  | succ fuel ih =>
    intro a visited ha hnew hbound
    have hdown := h.down_eq a ha
    have hsub : (fresh key (key a :: visited) (down a)).Sublist nodes := by
      rw [fresh, hdown]
      exact List.filter_sublist.trans List.filter_sublist
    have hchild : ∀ c ∈ fresh key (key a :: visited) (down a), c ∈ nodes ∧ up c = some (key a) ∧ key c ∉ key a :: visited := by
      intro c hc
      rw [fresh, hdown, List.mem_filter, List.mem_filter] at hc
      simpa [and_assoc] using hc
    have hless := unvisited_lt ha hnew
    obtain ⟨ts, visited', hts, hgrown⟩ := each_grown h.keyed ih (h.keyed.sublist (hsub.map key))
      (fun c hc => ⟨(hchild c hc).1, (hchild c hc).2.2⟩)
      (fun c hc p _ hup => by
        rw [(hchild c hc).2.1] at hup
        rw [← Option.some.inj hup]
        exact List.mem_cons_self)
      (by omega)
    refine ⟨.node a ts, visited', by rw [grow, hts, Option.map_some], ?_⟩
    refine hgrown.node ha hnew (fun c hc => (hchild c hc).2.1) hsub fun c hc hup => ?_
    by_cases hvisited : key c ∈ key a :: visited
    · exact .inl hvisited
    · right
      rw [fresh, hdown, List.mem_filter, List.mem_filter]
      simpa [hvisited] using ⟨hc, hup⟩

/-- What is not visited yet is grown, so that all is visited. -/
theorem rest_grown {step : α → List κ → Option (Rose α × List κ)} {bound : ℕ} (hstep : Grows key up nodes step bound)
    {as : List α} {visited : List κ} (hmem : ∀ a ∈ as, a ∈ nodes) (hbound : unvisited key nodes visited < bound) :
    ∃ starts ts visited', rest key step as visited = some (ts, visited') ∧ Grown key up nodes starts visited ts visited' ∧
      starts.Sublist as ∧ (∀ a ∈ as, key a ∈ visited') ∧ ∀ a ∈ starts, key a ∉ visited := by
  induction as generalizing visited with
  | nil => exact ⟨[], [], visited, rfl, .nil visited, .slnil, by simp, by simp⟩
  | cons a as ih =>
    by_cases hvisited : key a ∈ visited
    · obtain ⟨starts, ts, visited', hts, hgrown, hsub, hall, hnew⟩ := ih (fun b hb => hmem b (List.mem_cons_of_mem _ hb)) hbound
      refine ⟨starts, ts, visited', by rw [rest, if_pos hvisited, hts], hgrown, hsub.cons a, fun b hb => ?_, hnew⟩
      rcases List.mem_cons.1 hb with rfl | hb
      · exact hgrown.visited_subset _ hvisited
      · exact hall b hb
    · obtain ⟨t, visited₁, ht, hgrown⟩ := hstep a visited (hmem a List.mem_cons_self) hvisited hbound
      have hvalue : t.value = a := by simpa using hgrown.values
      obtain ⟨starts, ts, visited₂, hts, hrest, hsub, hall, hnew⟩ := ih (fun b hb => hmem b (List.mem_cons_of_mem _ hb))
        (Nat.lt_of_le_of_lt (unvisited_le hgrown.visited_subset) hbound)
      refine ⟨a :: starts, t :: ts, visited₂, ?_, hgrown.append hrest, hsub.cons_cons a, fun b hb => ?_, fun b hb => ?_⟩
      · rw [rest, if_neg hvisited, ht, Option.bind_some, hts, Option.map_some]
      · rcases List.mem_cons.1 hb with rfl | hb
        · apply hrest.visited_subset
          apply hgrown.key_mem
          rw [← hvalue]
          exact mem_flattenAll.2 ⟨t, List.mem_cons_self, value_mem_flatten t⟩
        · exact hall b hb
      · rcases List.mem_cons.1 hb with rfl | hb
        · exact hvisited
        · exact fun hold => hnew b hb (hgrown.visited_subset _ hold)

/-! ## Forests -/

variable (key) in
/-- The trees of these roots, then those of what they did not reach. -/
def forest {τ : Type} (step : α → List κ → Option (τ × List κ)) (roots nodes : List α) : Option (List τ) :=
  (each step roots []).bind fun p => (rest key step nodes p.2).map fun q => p.1 ++ q.1

theorem forest_map {τ σ : Type} (f : τ → σ) (step : α → List κ → Option (τ × List κ)) (roots nodes : List α) :
    (forest key step roots nodes).map (List.map f) =
      forest key (fun a visited => (step a visited).map fun p => (f p.1, p.2)) roots nodes := by
  rw [forest, forest, ← each_map]
  cases each step roots [] with
  | none => rfl
  | some p =>
    rw [Option.map_some, Option.bind_some, Option.bind_some, ← rest_map]
    cases rest key step nodes p.2 with
    | none => rfl
    | some q => simp

variable (key up nodes) in
/-- A node that names no parent, or none there is. -/
def Parentless (a : α) : Prop := ∀ p ∈ nodes, up a ≠ some (key p)

variable (key up nodes) in
/-- Nodes from parents to children. -/
structure Line (path : List α) : Prop where
  chain : path.IsChain fun p c => up c = some (key p)
  members : ∀ a ∈ path, a ∈ nodes

omit [DecidableEq κ] in
theorem Line.last_step {before : List α} {p a : α} (h : Line key up nodes (before ++ [p] ++ [a])) : up a = some (key p) := by
  have hchain := h.chain
  rw [List.append_assoc, List.singleton_append] at hchain
  exact (List.isChain_cons_cons.1 (List.isChain_append.1 hchain).2.1).1

omit [DecidableEq κ] in
theorem Line.of_prefix {path before : List α} (h : Line key up nodes path) (hbefore : before <+: path) : Line key up nodes before := by
  obtain ⟨below, rfl⟩ := hbefore
  exact ⟨(List.isChain_append.1 h.chain).1, fun c hc => h.members c (List.mem_append_left _ hc)⟩

variable (key up nodes) in
/-- Every node once, below its parent or as a root: those that were given and, in the order of the nodes, others. -/
structure IsForest (roots : List α) (ts : List (Rose α)) : Prop where
  perm : (flattenAll ts).Perm nodes
  shaped : ∀ t ∈ ts, Shaped key up nodes t
  values : ∃ starts, ts.map Rose.value = roots ++ starts ∧ starts.Sublist nodes
  /-- A root below a parentless node is this node. -/
  rooted : ∀ t ∈ ts, ∀ path, Line key up nodes path → path.getLast? = some t.value →
    (∀ a ∈ path.head?, Parentless key up nodes a) → path = [t.value]

omit [DecidableEq κ] in
/-- What is below a visited node is visited. -/
theorem Grown.line {as : List α} {visited' : List κ} {ts : List (Rose α)} (h : Grown key up nodes as [] ts visited')
    (hkeyed : (nodes.map key).Nodup) {path : List α} (hpath : Line key up nodes path)
    (hhead : ∀ a ∈ path.head?, key a ∈ visited') : ∀ a ∈ path, key a ∈ visited' := by
  induction path with
  | nil => simp
  | cons a path ih =>
    obtain ⟨hchain, hmembers⟩ := hpath
    obtain ⟨hnext, hchain⟩ := List.isChain_cons.1 hchain
    have ha := hhead a rfl
    intro b hb
    rcases List.mem_cons.1 hb with rfl | hb
    · exact ha
    · refine ih ⟨hchain, fun c hc => hmembers c (List.mem_cons_of_mem _ hc)⟩ (fun c hc => ?_) b hb
      obtain ⟨x, hx, hkey⟩ := List.mem_map.1 (((h.visited_iff _).1 ha).resolve_left (by simp))
      rw [eq_of_key hkeyed (h.members x hx) (hmembers a List.mem_cons_self) hkey] at hx
      exact h.closed a hx c (hmembers c (List.mem_cons_of_mem _ (List.mem_of_mem_head? hc))) (hnext c hc)

theorem forest_isForest {down : α → List α} (h : Family key up nodes down) {roots : List α} (hsub : roots.Sublist nodes)
    (hroots : ∀ a ∈ nodes, a ∈ roots ↔ Parentless key up nodes a) {fuel : ℕ} (hfuel : nodes.length < fuel) :
    ∃ ts, forest key (grow key down fuel) roots nodes = some ts ∧ IsForest key up nodes roots ts := by
  have hbound : ∀ visited, unvisited key nodes visited < fuel := fun visited =>
    Nat.lt_of_le_of_lt List.countP_le_length hfuel
  obtain ⟨ts, visited, hts, hfirst⟩ := each_grown h.keyed (grow_grows h fuel) (h.keyed.sublist (hsub.map key))
    (fun a ha => ⟨hsub.subset ha, List.not_mem_nil⟩)
    (fun a ha p hp hup => absurd hup ((hroots a (hsub.subset ha)).1 ha p hp)) (hbound [])
  obtain ⟨starts, us, visited', hus, hthen, horder, hall, hnew⟩ := rest_grown (grow_grows h fuel) (fun a ha => ha) (hbound visited)
  have hgrown := hfirst.append hthen
  refine ⟨ts ++ us, by rw [forest, hts, Option.bind_some, hus, Option.map_some], ?_, hgrown.shaped,
    ⟨starts, hgrown.values, horder⟩, ?_⟩
  · rw [List.perm_ext_iff_of_nodup (List.Nodup.of_map key hgrown.nodup) (List.Nodup.of_map key h.keyed)]
    refine fun a => ⟨hgrown.members a, fun ha => ?_⟩
    obtain ⟨x, hx, hkey⟩ := List.mem_map.1 (((hgrown.visited_iff _).1 (hall a ha)).resolve_left (by simp))
    rwa [← eq_of_key h.keyed (hgrown.members x hx) ha hkey]
  · intro t ht path hpath hlast hhead
    obtain ⟨before, rfl⟩ := List.getLast?_eq_some_iff.1 hlast
    rcases List.eq_nil_or_concat before with rfl | ⟨before, p, rfl⟩
    · rfl
    -- the root has a parent, so it was left over; but its tree was reached from the first node
    rw [List.concat_eq_append] at hpath hhead
    obtain ⟨first, hfirst_mem⟩ : ∃ first, first ∈ (before ++ [p] ++ [t.value]).head? := by
      cases before <;> exact ⟨_, rfl⟩
    have hmem := (hroots first (hpath.members first (List.mem_of_mem_head? hfirst_mem))).2 (hhead first hfirst_mem)
    rw [← hfirst.values] at hmem
    obtain ⟨u, hu, hvalue⟩ := List.mem_map.1 hmem
    have hvisited : ∀ a ∈ (before ++ [p] ++ [t.value]).head?, key a ∈ visited := by
      intro a ha
      rw [← Option.some.inj (hfirst_mem.symm.trans ha), ← hvalue]
      exact hfirst.key_mem (mem_flattenAll.2 ⟨u, hu, value_mem_flatten u⟩)
    have hreached := hfirst.line h.keyed hpath hvisited t.value (by simp)
    have hvalues : t.value ∈ roots ++ starts := hgrown.values ▸ List.mem_map_of_mem ht
    rcases List.mem_append.1 hvalues with hroot | hstart
    · exact absurd hpath.last_step ((hroots _ (hsub.subset hroot)).1 hroot p (hpath.members p (by simp)))
    · exact absurd hreached (hnew _ hstart)

/-! ## Lines up -/

omit [DecidableEq κ] in
/-- Of two lines down to one node, one ends with the other. -/
theorem Line.suffix_or {path path' : List α} (hkeyed : (nodes.map key).Nodup) (h : Line key up nodes path)
    (h' : Line key up nodes path') {a : α} (ha : path.getLast? = some a) (ha' : path'.getLast? = some a) :
    path <:+ path' ∨ path' <:+ path := by
  induction path using List.reverseRecOn generalizing path' a with
  | nil => exact .inl List.nil_suffix
  | append_singleton path b ih =>
    obtain rfl : b = a := by simpa using ha
    obtain ⟨others, rfl⟩ := List.getLast?_eq_some_iff.1 ha'
    rcases List.eq_nil_or_concat path with rfl | ⟨before, p, rfl⟩
    · exact .inl (List.suffix_append _ _)
    rcases List.eq_nil_or_concat others with rfl | ⟨before', p', rfl⟩
    · exact .inr (List.suffix_append _ _)
    rw [List.concat_eq_append] at h ih ⊢
    rw [List.concat_eq_append] at h' ⊢
    have hp : p = p' := by
      apply eq_of_key hkeyed (h.members p (by simp)) (h'.members p' (by simp))
      exact Option.some.inj (h.last_step.symm.trans h'.last_step)
    subst hp
    have hlast : ∀ l : List α, (l ++ [p]).getLast? = some p := fun l => by simp
    exact (ih (h.of_prefix (List.prefix_append _ _)) (h'.of_prefix (List.prefix_append _ _)) (hlast _) (hlast _)).imp List.suffix_append_self_iff.2 List.suffix_append_self_iff.2

omit [DecidableEq κ] in
/-- The path to a node below a parentless one is the line from there. -/
theorem IsForest.path_eq {roots : List α} {ts : List (Rose α)} (h : IsForest key up nodes roots ts)
    (hkeyed : (nodes.map key).Nodup) {path line : List α}
    (hpath : Leads ts path) (hline : Line key up nodes line) (hhead : ∀ a ∈ line.head?, Parentless key up nodes a) {a : α}
    (ha : path.getLast? = some a) (ha' : line.getLast? = some a) : path = line := by
  have hpath_line : Line key up nodes path := ⟨hpath.chain h.shaped, fun b hb => h.perm.mem_iff.1 (hpath.mem hb)⟩
  obtain ⟨t, ht, hroot⟩ := hpath.head
  rcases hpath_line.suffix_or hkeyed hline ha ha' with ⟨before, rfl⟩ | ⟨before, rfl⟩
  · obtain ⟨below, rfl⟩ : ∃ below, path = t.value :: below := by
      cases path with
      | nil => cases hroot
      | cons b below => exact ⟨below, by rw [Option.some.inj hroot]⟩
    -- the line comes down to the root, so the root is where it begins
    have hdown : Line key up nodes (before ++ [t.value]) := hline.of_prefix ⟨below, by simp⟩
    have halone := h.rooted t ht _ hdown (by simp) (by cases before <;> simpa using hhead)
    obtain rfl : before = [] := by simpa using halone
    rfl
  · rcases List.eq_nil_or_concat before with rfl | ⟨before, p, rfl⟩
    · rfl
    obtain ⟨top, below, rfl⟩ : ∃ top below, line = top :: below := by
      cases line with
      | nil => cases ha'
      | cons top below => exact ⟨top, below, rfl⟩
    rw [List.concat_eq_append] at hpath_line
    have hup : Line key up nodes (before ++ [p] ++ [top]) := hpath_line.of_prefix ⟨below, by simp⟩
    exact absurd hup.last_step (hhead top rfl p (hup.members p (by simp)))

/-! ## More fuel -/

section Fuel

variable {τ : Type} {step step' : α → List κ → Option (τ × List κ)}

omit [DecidableEq κ] in
theorem each_mono (h : ∀ a visited p, step a visited = some p → step' a visited = some p) {as : List α} {visited : List κ}
    {q : List τ × List κ} (hq : each step as visited = some q) : each step' as visited = some q := by
  induction as generalizing visited q with
  | nil => exact hq
  | cons a as ih =>
    obtain ⟨p, hp, hq⟩ := Option.bind_eq_some_iff.1 hq
    obtain ⟨r, hr, rfl⟩ := Option.map_eq_some_iff.1 hq
    rw [each, h a visited p hp, Option.bind_some, ih hr, Option.map_some]

theorem rest_mono (h : ∀ a visited p, step a visited = some p → step' a visited = some p) {as : List α} {visited : List κ}
    {q : List τ × List κ} (hq : rest key step as visited = some q) : rest key step' as visited = some q := by
  induction as generalizing visited q with
  | nil => exact hq
  | cons a as ih =>
    rw [rest] at hq ⊢
    split
    · rename_i hvisited
      rw [if_pos hvisited] at hq
      exact ih hq
    · rename_i hvisited
      rw [if_neg hvisited] at hq
      obtain ⟨p, hp, hq⟩ := Option.bind_eq_some_iff.1 hq
      obtain ⟨r, hr, rfl⟩ := Option.map_eq_some_iff.1 hq
      rw [h a visited p hp, Option.bind_some, ih hr, Option.map_some]

theorem forest_mono (h : ∀ a visited p, step a visited = some p → step' a visited = some p) {roots nodes : List α} {ts : List τ}
    (hts : forest key step roots nodes = some ts) : forest key step' roots nodes = some ts := by
  obtain ⟨p, hp, hts⟩ := Option.bind_eq_some_iff.1 hts
  obtain ⟨q, hq, rfl⟩ := Option.map_eq_some_iff.1 hts
  rw [forest, each_mono h hp, Option.bind_some, rest_mono h hq, Option.map_some]

end Fuel

/-! ## Going up -/

variable (key) in
/-- The nodes from a parent to a parent, the last first, until there is none or it was there before. -/
def ascend (parent : α → Option α) : ℕ → List κ → List α → Option α → Option (List α)
  | _, _, branch, none => some branch
  | 0, _, _, some _ => none
  | fuel + 1, visited, branch, some a =>
    if key a ∈ visited then some branch else ascend parent fuel (key a :: visited) (a :: branch) (parent a)

variable (key up nodes) in
/-- The line to a node from the farthest one above it that can be reached without a repetition. -/
structure Branch (a : α) (branch : List α) : Prop where
  line : Line key up nodes branch
  nodup : (branch.map key).Nodup
  last : branch.getLast? = some a
  farthest : ∀ b ∈ branch.head?, ∀ p ∈ nodes, up b = some (key p) → p ∈ branch

/-- A climb that is some way up, and where it is. -/
theorem ascend_branch {parent : α → Option α} (hkeyed : (nodes.map key).Nodup)
    (hparent : ∀ a ∈ nodes, ∀ p, parent a = some p ↔ p ∈ nodes ∧ up a = some (key p)) {a : α} {fuel : ℕ} {branch : List α}
    (hline : Line key up nodes branch) (hnodup : (branch.map key).Nodup) (hlast : branch.getLast? = some a)
    (hfuel : nodes.length < fuel + branch.length) {b : α} (hhead : branch.head? = some b) :
    ∃ result, ascend key parent fuel (branch.map key) branch (parent b) = some result ∧ Branch key up nodes a result := by
  induction fuel generalizing branch b with
  | zero =>
    have hsub : branch.map key ⊆ nodes.map key := fun k hk => by
      obtain ⟨c, hc, rfl⟩ := List.mem_map.1 hk
      exact List.mem_map_of_mem (hline.members c hc)
    have := (List.subperm_of_subset hnodup hsub).length_le
    simp only [List.length_map] at this
    omega
  | succ fuel ih =>
    have hb : b ∈ nodes := hline.members b (List.mem_of_mem_head? hhead)
    cases hp : parent b with
    | none =>
      refine ⟨branch, by rw [ascend], hline, hnodup, hlast, fun c hc p hpmem hup => ?_⟩
      rw [← Option.some.inj (hhead.symm.trans hc)] at hup
      rw [(hparent b hb p).2 ⟨hpmem, hup⟩] at hp
      cases hp
    | some p =>
      obtain ⟨hpmem, hup⟩ := (hparent b hb p).1 hp
      rw [ascend]
      by_cases hvisited : key p ∈ branch.map key
      · rw [if_pos hvisited]
        refine ⟨branch, rfl, hline, hnodup, hlast, fun c hc q hq hupq => ?_⟩
        rw [← Option.some.inj (hhead.symm.trans hc), hup] at hupq
        obtain ⟨d, hd, hkey⟩ := List.mem_map.1 hvisited
        rwa [← eq_of_key hkeyed hpmem hq (Option.some.inj hupq), ← eq_of_key hkeyed (hline.members d hd) hpmem hkey]
      · rw [if_neg hvisited]
        have hcons : Line key up nodes (p :: branch) := by
          refine ⟨List.isChain_cons.2 ⟨fun c hc => ?_, hline.chain⟩, fun c hc => ?_⟩
          · rw [← Option.some.inj (hhead.symm.trans hc)]
            exact hup
          · rcases List.mem_cons.1 hc with rfl | hc
            · exact hpmem
            · exact hline.members c hc
        refine ih hcons (List.nodup_cons.2 ⟨hvisited, hnodup⟩) ?_ (by simp only [List.length_cons]; omega) rfl
        rw [List.getLast?_cons, hlast]
        rfl

theorem ascend_start {parent : α → Option α} (hkeyed : (nodes.map key).Nodup)
    (hparent : ∀ a ∈ nodes, ∀ p, parent a = some p ↔ p ∈ nodes ∧ up a = some (key p)) {a : α} (ha : a ∈ nodes) {fuel : ℕ}
    (hfuel : nodes.length < fuel) :
    ∃ branch, ascend key parent fuel [] [] (some a) = some branch ∧ Branch key up nodes a branch := by
  cases fuel with
  | zero => exact absurd hfuel (Nat.not_lt_zero _)
  | succ fuel =>
    have hone : Line key up nodes [a] := ⟨List.isChain_singleton a, fun b hb => List.mem_singleton.1 hb ▸ ha⟩
    rw [ascend, if_neg List.not_mem_nil]
    exact ascend_branch hkeyed hparent hone (List.nodup_singleton _) rfl (by simpa using hfuel) rfl

theorem ascend_mono {parent : α → Option α} {fuel fuel' : ℕ} (hle : fuel ≤ fuel') {visited : List κ} {branch : List α}
    {start : Option α} {result : List α} (h : ascend key parent fuel visited branch start = some result) :
    ascend key parent fuel' visited branch start = some result := by
  induction fuel generalizing fuel' visited branch start with
  | zero =>
    cases start with
    | none => rwa [ascend] at h ⊢
    | some a => cases h
  | succ fuel ih =>
    cases start with
    | none => rwa [ascend] at h ⊢
    | some a =>
      cases fuel' with
      | zero => omega
      | succ fuel' =>
        rw [ascend] at h ⊢
        split
        · rename_i hvisited
          rwa [if_pos hvisited] at h
        · rename_i hvisited
          rw [if_neg hvisited] at h
          exact ih (by omega) h

variable (key up nodes) in
/-- Going up from a node ends at a parentless one. -/
inductive Rooted : α → Prop
  | root {a : α} (parentless : Parentless key up nodes a) : Rooted a
  | step {a p : α} (mem : p ∈ nodes) (parent : up a = some (key p)) (rooted : Rooted p) : Rooted a

omit [DecidableEq κ] in
/-- The branch of a node that is rooted begins at its root. -/
theorem Branch.head {a : α} {branch : List α} (h : Branch key up nodes a branch) (hkeyed : (nodes.map key).Nodup)
    (ha : Rooted key up nodes a) : ∀ b ∈ branch.head?, Parentless key up nodes b := by
  intro top htop p hp hup
  have hback := h.farthest top htop p hp hup
  -- otherwise every node of the branch has its parent in it
  have hstay : ∀ b ∈ branch, ∃ q ∈ branch, up b = some (key q) := by
    intro b hb
    obtain ⟨before, below, hsplit⟩ := List.append_of_mem hb
    rcases List.eq_nil_or_concat before with rfl | ⟨before, q, rfl⟩
    · rw [hsplit] at htop
      obtain rfl : b = top := Option.some.inj htop
      exact ⟨p, hback, hup⟩
    · rw [List.concat_eq_append] at hsplit
      have hline : Line key up nodes (before ++ [q] ++ [b]) := h.line.of_prefix ⟨below, by rw [hsplit]; simp⟩
      exact ⟨q, by rw [hsplit]; simp, hline.last_step⟩
  have hnever : ∀ b, Rooted key up nodes b → b ∉ branch := by
    intro b hb
    induction hb with
    | root hparentless =>
      intro hmem
      obtain ⟨q, hq, hupq⟩ := hstay _ hmem
      exact hparentless q (h.line.members q hq) hupq
    | step hmem hparent _ ih =>
      intro hb
      obtain ⟨q, hq, hupq⟩ := hstay _ hb
      apply ih
      rwa [eq_of_key hkeyed hmem (h.line.members q hq) (Option.some.inj (hparent.symm.trans hupq))]
  exact hnever a ha (List.mem_of_getLast? h.last)

end Growing
