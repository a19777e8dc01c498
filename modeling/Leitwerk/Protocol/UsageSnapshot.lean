import Leitwerk.Lib.Nesting
import Mathlib.Data.List.ReduceOption
import Mathlib.Tactic.Linarith
import Mathlib.Data.Rat.Floor
/-!
# Usage totals

`usage-snapshot.ts` with exact numbers. Snapshots are merged as turns, attempts
and processes group them; where request counts and maxima are known for all but
one of them, or for none, the grouping does not show in the total.
-/

namespace Leitwerk.Protocol.UsageTotals

/-! ## Snapshots -/

/-- What a reader can meet: a finite number, a record, or anything else. A field
that is absent reads as `other`. -/
inductive Value
  | num (q : ℚ)
  | record (fields : List (String × Value))
  | other

structure UsageCostSnapshot where
  input : ℚ
  output : ℚ
  cacheRead : ℚ
  cacheWrite : ℚ
  total : ℚ

@[ext] structure UsageSnapshot where
  input : ℚ
  output : ℚ
  reasoning : Option ℚ
  cacheRead : ℚ
  cacheWrite : ℚ
  totalTokens : ℚ
  cost : Option UsageCostSnapshot
  requestCount : Option ℚ
  maxInputTokens : Option ℚ

/-- `record[key]`. -/
def field (fields : List (String × Value)) (key : String) : Value := (fields.lookup key).getD .other

def readFiniteNumber : Value → Option ℚ
  | .num q => some q
  | _ => none

/-- `unknownRecordSchema`. -/
def parseRecord : Value → Option (List (String × Value))
  | .record fields => some fields
  | _ => none

def normalizeUsageCostSnapshot (value : Value) : Option UsageCostSnapshot :=
  match parseRecord value with
  | none => none
  | some record =>
    let input := (readFiniteNumber (field record "input")).getD 0
    let output := (readFiniteNumber (field record "output")).getD 0
    let cacheRead := (readFiniteNumber (field record "cacheRead")).getD 0
    let cacheWrite := (readFiniteNumber (field record "cacheWrite")).getD 0
    some {
      input, output, cacheRead, cacheWrite
      total := (readFiniteNumber (field record "total")).getD (input + output + cacheRead + cacheWrite) }

def normalizeUsageSnapshot (value : Value) : Option UsageSnapshot :=
  match parseRecord value with
  | none => none
  | some record =>
    let input := (readFiniteNumber (field record "input")).getD 0
    let output := (readFiniteNumber (field record "output")).getD 0
    let reasoning := readFiniteNumber (field record "reasoning")
    let cacheRead := (readFiniteNumber (field record "cacheRead")).getD 0
    let cacheWrite := (readFiniteNumber (field record "cacheWrite")).getD 0
    let cost := normalizeUsageCostSnapshot (field record "cost")
    let maxInputTokens := readFiniteNumber (field record "maxInputTokens")
    let hasExplicitUsageTelemetry :=
      (["input", "output", "reasoning", "cacheRead", "cacheWrite", "totalTokens"].any fun key =>
        (readFiniteNumber (field record key)).isSome) || cost.isSome
    if !hasExplicitUsageTelemetry then none
    else some {
      input, output, reasoning, cacheRead, cacheWrite, cost
      totalTokens := (readFiniteNumber (field record "totalTokens")).getD (input + output + cacheRead + cacheWrite)
      requestCount := some (max 0 ⌊(readFiniteNumber (field record "requestCount")).getD 1⌋)
      maxInputTokens := some (match maxInputTokens with
        | some tokens => max 0 tokens
        | none => input) }

/-- `mergeUsageSnapshots` of two snapshots. -/
def mergeBoth (total usage : UsageSnapshot) : UsageSnapshot :=
  let hasRequestMetrics := total.requestCount.isSome || usage.requestCount.isSome ||
    total.maxInputTokens.isSome || usage.maxInputTokens.isSome
  { input := total.input + usage.input
    output := total.output + usage.output
    reasoning :=
      if total.reasoning.isSome || usage.reasoning.isSome then some (total.reasoning.getD 0 + usage.reasoning.getD 0) else none
    cacheRead := total.cacheRead + usage.cacheRead
    cacheWrite := total.cacheWrite + usage.cacheWrite
    totalTokens := total.totalTokens + usage.totalTokens
    cost := match total.cost, usage.cost with
      | some a, some b =>
        some ⟨a.input + b.input, a.output + b.output, a.cacheRead + b.cacheRead, a.cacheWrite + b.cacheWrite, a.total + b.total⟩
      | _, _ => none
    requestCount := if hasRequestMetrics then some (total.requestCount.getD 1 + usage.requestCount.getD 1) else none
    maxInputTokens :=
      if hasRequestMetrics then some (max (total.maxInputTokens.getD total.input) (usage.maxInputTokens.getD usage.input))
      else none }

def mergeUsageSnapshots : Option UsageSnapshot → Option UsageSnapshot → Option UsageSnapshot
  | total, none => total
  | none, some usage => some usage
  | some total, some usage => some (mergeBoth total usage)

/-! ## Request metrics -/

/-- Neither a request count nor a maximum is known. -/
def UsageSnapshot.Plain (u : UsageSnapshot) : Prop := u.requestCount = none ∧ u.maxInputTokens = none

instance (u : UsageSnapshot) : Decidable u.Plain := inferInstanceAs (Decidable (_ ∧ _))

/-- The snapshot as a merge takes it: one request, with its own input as maximum. -/
def UsageSnapshot.known (u : UsageSnapshot) : UsageSnapshot :=
  { u with requestCount := some (u.requestCount.getD 1), maxInputTokens := some (u.maxInputTokens.getD u.input) }

theorem hasRequestMetrics_iff (a b : UsageSnapshot) :
    (a.requestCount.isSome || b.requestCount.isSome || a.maxInputTokens.isSome || b.maxInputTokens.isSome) = true ↔
      ¬ (a.Plain ∧ b.Plain) := by
  unfold UsageSnapshot.Plain
  cases a.requestCount <;> cases b.requestCount <;> cases a.maxInputTokens <;> cases b.maxInputTokens <;> simp

theorem known_not_plain (u : UsageSnapshot) : ¬ u.known.Plain := by simp [UsageSnapshot.known, UsageSnapshot.Plain]

theorem mergeBoth_plain_iff {a b : UsageSnapshot} : (mergeBoth a b).Plain ↔ a.Plain ∧ b.Plain := by
  constructor
  · intro h
    by_contra hne
    have hcount := h.1
    simp only [mergeBoth, if_pos ((hasRequestMetrics_iff a b).2 hne)] at hcount
    cases hcount
  · intro h
    have hmetrics : ¬ _ := fun hm => (hasRequestMetrics_iff a b).1 hm h
    simp only [UsageSnapshot.Plain, mergeBoth, if_neg hmetrics, and_self]

/-- Beside known metrics, a snapshot counts as it is known. -/
theorem mergeBoth_known {a b : UsageSnapshot} (h : ¬ (a.Plain ∧ b.Plain)) :
    mergeBoth a.known b.known = mergeBoth a b := by
  have hknown : ¬ (a.known.Plain ∧ b.known.Plain) := fun hab => known_not_plain a hab.1
  simp only [mergeBoth, if_pos ((hasRequestMetrics_iff a b).2 h), if_pos ((hasRequestMetrics_iff _ _).2 hknown)]
  simp [UsageSnapshot.known]

theorem mergeBoth_metrics {a b : UsageSnapshot} (h : ¬ (a.Plain ∧ b.Plain)) :
    (mergeBoth a b).requestCount = some (a.requestCount.getD 1 + b.requestCount.getD 1) ∧
      (mergeBoth a b).maxInputTokens = some (max (a.maxInputTokens.getD a.input) (b.maxInputTokens.getD b.input)) := by
  simp only [mergeBoth, if_pos ((hasRequestMetrics_iff a b).2 h), and_self]

theorem known_mergeBoth {a b : UsageSnapshot} (h : ¬ (a.Plain ∧ b.Plain)) : (mergeBoth a b).known = mergeBoth a b := by
  obtain ⟨hcount, hmax⟩ := mergeBoth_metrics h
  ext1 <;> simp [UsageSnapshot.known, hcount, hmax]

/-! ## The laws of merging -/

theorem mergeBoth_comm (a b : UsageSnapshot) : mergeBoth a b = mergeBoth b a := by
  have hmetrics : (a.requestCount.isSome || b.requestCount.isSome || a.maxInputTokens.isSome || b.maxInputTokens.isSome) =
      (b.requestCount.isSome || a.requestCount.isSome || b.maxInputTokens.isSome || a.maxInputTokens.isSome) := by
    rw [Bool.or_comm a.requestCount.isSome, Bool.or_assoc, Bool.or_comm a.maxInputTokens.isSome, ← Bool.or_assoc]
  unfold mergeBoth
  rw [hmetrics]
  ext1
  · exact add_comm _ _
  · exact add_comm _ _
  · simp only [Bool.or_comm, add_comm]
  · exact add_comm _ _
  · exact add_comm _ _
  · exact add_comm _ _
  · cases a.cost <;> cases b.cost <;> simp [add_comm]
  · simp only [add_comm]
  · simp only [max_comm]

/-- Metrics known of all three, or of none. -/
theorem mergeBoth_assoc {a b c : UsageSnapshot}
    (h : a.Plain ∧ b.Plain ∧ c.Plain ∨ ¬ a.Plain ∧ ¬ b.Plain ∧ ¬ c.Plain) :
    mergeBoth (mergeBoth a b) c = mergeBoth a (mergeBoth b c) := by
  have hreasoning : (mergeBoth (mergeBoth a b) c).reasoning = (mergeBoth a (mergeBoth b c)).reasoning := by
    obtain ⟨-, -, ra, -⟩ := a
    obtain ⟨-, -, rb, -⟩ := b
    obtain ⟨-, -, rc, -⟩ := c
    cases ra <;> cases rb <;> cases rc <;> simp [mergeBoth, add_assoc]
  have hcost : (mergeBoth (mergeBoth a b) c).cost = (mergeBoth a (mergeBoth b c)).cost := by
    simp only [mergeBoth]
    cases a.cost <;> cases b.cost <;> cases c.cost <;> simp [add_assoc]
  have hmetrics : (mergeBoth (mergeBoth a b) c).requestCount = (mergeBoth a (mergeBoth b c)).requestCount ∧
      (mergeBoth (mergeBoth a b) c).maxInputTokens = (mergeBoth a (mergeBoth b c)).maxInputTokens := by
    rcases h with ⟨ha, hb, hc⟩ | ⟨ha, hb, hc⟩
    · have hleft := mergeBoth_plain_iff.2 ⟨mergeBoth_plain_iff.2 ⟨ha, hb⟩, hc⟩
      have hright := mergeBoth_plain_iff.2 ⟨ha, mergeBoth_plain_iff.2 ⟨hb, hc⟩⟩
      exact ⟨hleft.1.trans hright.1.symm, hleft.2.trans hright.2.symm⟩
    · -- both sums and maxima are over the three known ones
      have hab : ¬ (a.Plain ∧ b.Plain) := fun hab => ha hab.1
      have hbc : ¬ (b.Plain ∧ c.Plain) := fun hbc => hb hbc.1
      have habc : ¬ ((mergeBoth a b).Plain ∧ c.Plain) := fun h => hc h.2
      have habc' : ¬ (a.Plain ∧ (mergeBoth b c).Plain) := fun h => ha h.1
      obtain ⟨hcount, hmax⟩ := mergeBoth_metrics hab
      obtain ⟨hcount', hmax'⟩ := mergeBoth_metrics hbc
      obtain ⟨hleft, hleftMax⟩ := mergeBoth_metrics habc
      obtain ⟨hright, hrightMax⟩ := mergeBoth_metrics habc'
      rw [hleft, hleftMax, hright, hrightMax, hcount, hcount', hmax, hmax']
      simp [add_assoc, max_assoc]
  ext1
  · exact add_assoc _ _ _
  · exact add_assoc _ _ _
  · exact hreasoning
  · exact add_assoc _ _ _
  · exact add_assoc _ _ _
  · exact add_assoc _ _ _
  · exact hcost
  · exact hmetrics.1
  · exact hmetrics.2

/-! ## Groupings -/

/-- How many snapshots are plain. -/
def plains (l : List (Option UsageSnapshot)) : ℕ := l.reduceOption.countP fun u => u.Plain

/-- Request metrics are known of no snapshot, or of all but at most one. -/
def Grouped (l : List (Option UsageSnapshot)) : Prop := (∀ u ∈ l.reduceOption, u.Plain) ∨ plains l ≤ 1

theorem plains_append (l l' : List (Option UsageSnapshot)) : plains (l ++ l') = plains l + plains l' := by
  simp only [plains, List.reduceOption_append, List.countP_append]

theorem plains_cons_some (u : UsageSnapshot) (l : List (Option UsageSnapshot)) :
    plains (some u :: l) = plains l + if u.Plain then 1 else 0 := by
  simp [plains, List.reduceOption_cons_of_some, List.countP_cons]

theorem plains_perm {l l' : List (Option UsageSnapshot)} (h : l.Perm l') : plains l = plains l' := (h.filterMap id).countP_eq _

theorem exists_plain {l : List (Option UsageSnapshot)} (h : 0 < plains l) :
    ∃ a l', UsageSnapshot.Plain a ∧ l.Perm (some a :: l') ∧ plains l = plains l' + 1 := by
  obtain ⟨a, ha, hplain⟩ := List.countP_pos_iff.1 h
  obtain ⟨s, t, rfl⟩ := List.append_of_mem (List.reduceOption_mem_iff.1 ha)
  have hperm : (s ++ some a :: t).Perm (some a :: (s ++ t)) := List.perm_middle
  refine ⟨a, s ++ t, of_decide_eq_true hplain, hperm, ?_⟩
  rw [plains_perm hperm, plains_cons_some, if_pos (of_decide_eq_true hplain)]

abbrev total (n : Nesting (Option UsageSnapshot)) : Option UsageSnapshot := n.merge mergeUsageSnapshots

@[simp] theorem mergeUsageSnapshots_none_left (u : Option UsageSnapshot) : mergeUsageSnapshots none u = u := by
  cases u <;> rfl

@[simp] theorem mergeUsageSnapshots_none_right (u : Option UsageSnapshot) : mergeUsageSnapshots u none = u := by
  cases u <;> rfl

@[simp] theorem mergeUsageSnapshots_some (a b : UsageSnapshot) : mergeUsageSnapshots (some a) (some b) = some (mergeBoth a b) := rfl

theorem mergeUsageSnapshots_comm (a b : Option UsageSnapshot) : mergeUsageSnapshots a b = mergeUsageSnapshots b a := by
  cases a with
  | none => simp
  | some a =>
    cases b with
    | none => simp
    | some b => rw [mergeUsageSnapshots_some, mergeUsageSnapshots_some, mergeBoth_comm]

/-- Among snapshots that are all plain, or none of them, merging is a commutative monoid. -/
theorem commutes (plain : Bool) :
    Nesting.Commutes mergeUsageSnapshots none fun u => ∀ v, u = some v → (decide v.Plain = plain) where
  unit_mem := by simp
  closed a b ha hb := by
    cases a with
    | none => simpa using hb
    | some a =>
      cases b with
      | none => simpa using ha
      | some b =>
        intro v hv
        obtain rfl : mergeBoth a b = v := by simpa using hv
        have ha' := ha a rfl
        have hb' := hb b rfl
        cases plain <;> simp_all [mergeBoth_plain_iff]
  left_unit := by simp
  right_unit := by simp
  comm := mergeUsageSnapshots_comm
  assoc a b c ha hb hc := by
    cases a with
    | none => simp
    | some a =>
      cases b with
      | none => simp
      | some b =>
        cases c with
        | none => simp
        | some c =>
          have ha' := ha a rfl
          have hb' := hb b rfl
          have hc' := hc c rfl
          simp only [mergeUsageSnapshots_some]
          rw [mergeBoth_assoc]
          cases plain <;> simp_all

/-- Only nulls merge to null. -/
theorem total_eq_none_iff {n : Nesting (Option UsageSnapshot)} : total n = none ↔ n.leaves.reduceOption = [] := by
  induction n with
  | leaf u => cases u <;> simp [total, Nesting.merge, List.reduceOption]
  | node left right ihl ihr =>
    rw [Nesting.leaves_node, List.reduceOption_append, List.append_eq_nil_iff, ← ihl, ← ihr]
    simp only [total, Nesting.merge]
    cases left.merge mergeUsageSnapshots <;> cases right.merge mergeUsageSnapshots <;> simp

/-- A single snapshot is its own total. -/
theorem total_singleton {n : Nesting (Option UsageSnapshot)} {u : UsageSnapshot} (h : n.leaves.reduceOption = [u]) :
    total n = some u := by
  induction n with
  | leaf v => cases v <;> simp_all [total, Nesting.merge, List.reduceOption]
  | node left right ihl ihr =>
    rw [Nesting.leaves_node, List.reduceOption_append, List.append_eq_singleton_iff] at h
    show mergeUsageSnapshots (total left) (total right) = some u
    rcases h with ⟨hleft, hright⟩ | ⟨hleft, hright⟩
    · rw [total_eq_none_iff.2 hleft, ihr hright, mergeUsageSnapshots_none_left]
    · rw [total_eq_none_iff.2 hright, ihl hleft, mergeUsageSnapshots_none_right]

/-- A plain total has plain snapshots only. -/
theorem plain_of_total {n : Nesting (Option UsageSnapshot)} {u : UsageSnapshot} (h : total n = some u) (hu : u.Plain) :
    ∀ v ∈ n.leaves.reduceOption, v.Plain := by
  induction n generalizing u with
  | leaf v =>
    obtain rfl : v = some u := h
    simpa [List.reduceOption] using hu
  | node left right ihl ihr =>
    rw [Nesting.leaves_node, List.reduceOption_append]
    change mergeUsageSnapshots (total left) (total right) = some u at h
    intro v hv
    cases hl : total left with
    | none =>
      rw [total_eq_none_iff.1 hl, List.nil_append] at hv
      rw [hl, mergeUsageSnapshots_none_left] at h
      exact ihr h hu v hv
    | some a =>
      cases hr : total right with
      | none =>
        rw [total_eq_none_iff.1 hr, List.append_nil] at hv
        rw [hr, mergeUsageSnapshots_none_right] at h
        exact ihl h hu v hv
      | some b =>
        rw [hl, hr] at h
        obtain rfl : mergeBoth a b = u := by simpa using h
        obtain ⟨ha, hb⟩ := mergeBoth_plain_iff.1 hu
        rcases List.mem_append.1 hv with hv | hv
        · exact ihl hl ha v hv
        · exact ihr hr hb v hv

theorem countP_plain_pos {n : Nesting (Option UsageSnapshot)} {u : UsageSnapshot} (h : total n = some u) (hu : u.Plain) :
    0 < plains n.leaves := by
  have hne : n.leaves.reduceOption ≠ [] := fun hnil => by simp [total_eq_none_iff.2 hnil] at h
  obtain ⟨v, hv⟩ := List.exists_mem_of_ne_nil _ hne
  exact List.countP_pos_iff.2 ⟨v, hv, decide_eq_true (plain_of_total h hu v hv)⟩

/-- Two plain totals come from two plain snapshots. -/
theorem not_both_plain {left right : Nesting (Option UsageSnapshot)} {a b : UsageSnapshot} (hl : total left = some a)
    (hr : total right = some b)
    (h : plains left.leaves + plains right.leaves ≤ 1) :
    ¬ (a.Plain ∧ b.Plain) := by
  rintro ⟨ha, hb⟩
  have hleft := countP_plain_pos hl ha
  have hright := countP_plain_pos hr hb
  omega

/-- With metrics known of all but one, a total is that of the snapshots as they are known. -/
theorem total_known {n : Nesting (Option UsageSnapshot)} (h : plains n.leaves ≤ 1) :
    total (n.map (Option.map UsageSnapshot.known)) = (total n).map UsageSnapshot.known := by
  induction n with
  | leaf u => rfl
  | node left right ihl ihr =>
    rw [Nesting.leaves_node, plains_append] at h
    show mergeUsageSnapshots (total (left.map _)) (total (right.map _)) = (mergeUsageSnapshots (total left) (total right)).map _
    rw [ihl (by omega), ihr (by omega)]
    cases hl : total left with
    | none => simp
    | some a =>
      cases hr : total right with
      | none => simp
      | some b =>
        have hboth := not_both_plain hl hr h
        simp [mergeBoth_known hboth, known_mergeBoth hboth]

/-- A total of several snapshots, not all of them plain, is known. -/
theorem known_total {n : Nesting (Option UsageSnapshot)} (hcount : plains n.leaves ≤ 1)
    (hlength : 2 ≤ n.leaves.reduceOption.length) : (total n).map UsageSnapshot.known = total n := by
  induction n with
  | leaf u => cases u <;> simp [List.reduceOption] at hlength
  | node left right ihl ihr =>
    rw [Nesting.leaves_node, plains_append] at hcount
    rw [Nesting.leaves_node, List.reduceOption_append] at hlength
    show (mergeUsageSnapshots (total left) (total right)).map _ = mergeUsageSnapshots (total left) (total right)
    cases hl : total left with
    | none =>
      rw [total_eq_none_iff.1 hl, List.nil_append] at hlength
      simpa using ihr (by omega) hlength
    | some a =>
      cases hr : total right with
      | none =>
        rw [total_eq_none_iff.1 hr, List.append_nil] at hlength
        rw [mergeUsageSnapshots_none_right, ← hl]
        exact ihl (by omega) hlength
      | some b =>
        have hboth := not_both_plain hl hr hcount
        simp [known_mergeBoth hboth]

/-- Where the metrics are grouped, neither order nor nesting shows in the total. -/
theorem total_perm {n m : Nesting (Option UsageSnapshot)} (hperm : n.leaves.Perm m.leaves) (h : Grouped n.leaves) :
    total n = total m := by
  rcases h with hplain | hcount
  · refine (commutes true).merge_perm (fun u hu v hv => decide_eq_true (hplain v ?_)) hperm
    exact List.reduceOption_mem_iff.2 (hv ▸ hu)
  · have hperm' : n.leaves.reduceOption.Perm m.leaves.reduceOption := hperm.filterMap id
    have hcount' : plains m.leaves ≤ 1 := plains_perm hperm ▸ hcount
    match hn : n.leaves.reduceOption with
    | [] =>
      rw [hn] at hperm'
      rw [total_eq_none_iff.2 hn, total_eq_none_iff.2 hperm'.symm.eq_nil]
    | [u] =>
      rw [hn] at hperm'
      rw [total_singleton hn, total_singleton (List.perm_singleton.1 hperm'.symm)]
    | u :: v :: us =>
      have hlength : 2 ≤ n.leaves.reduceOption.length := by simp [hn]
      rw [← known_total hcount hlength, ← known_total hcount' (hperm'.length_eq ▸ hlength), ← total_known hcount,
        ← total_known hcount']
      refine (commutes false).merge_perm (fun u hu v hv => ?_) ?_
      · rw [Nesting.leaves_map, hv, List.mem_map] at hu
        obtain ⟨w, -, hw⟩ := hu
        obtain ⟨x, -, rfl⟩ := Option.map_eq_some_iff.1 hw
        exact decide_eq_false (known_not_plain x)
      · rw [Nesting.leaves_map, Nesting.leaves_map]
        exact hperm.map _

/-- Two plain snapshots and one that is not: taken together, the two count for one request. -/
theorem nesting_matters {a b c : UsageSnapshot} (ha : a.Plain) (hb : b.Plain) (hc : ¬ c.Plain) (l : List (Option UsageSnapshot)) :
    total (.node (.node (.leaf (some a)) (.leaf (some b))) (.ofList (some c) l)) ≠
      total (.node (.leaf (some a)) (.node (.leaf (some b)) (.ofList (some c) l))) := by
  have hmem : c ∈ (Nesting.ofList (some c) l).leaves.reduceOption := by
    rw [List.reduceOption_mem_iff, Nesting.leaves_ofList]
    exact List.mem_cons_self
  obtain ⟨r, hr⟩ : ∃ r, total (.ofList (some c) l) = some r :=
    Option.ne_none_iff_exists'.1 fun hnone => List.ne_nil_of_mem hmem (total_eq_none_iff.1 hnone)
  have hplain : ¬ r.Plain := fun h => hc (plain_of_total hr h c hmem)
  intro h
  have h' : mergeBoth (mergeBoth a b) r = mergeBoth a (mergeBoth b r) := by
    simpa [total, Nesting.merge, show Nesting.merge mergeUsageSnapshots (.ofList (some c) l) = some r from hr] using h
  have hcount := congrArg UsageSnapshot.requestCount h'
  have hab := mergeBoth_plain_iff.2 ⟨ha, hb⟩
  have hbr : ¬ (b.Plain ∧ r.Plain) := fun h => hplain h.2
  have habr : ¬ ((mergeBoth a b).Plain ∧ r.Plain) := fun h => hplain h.2
  have habr' : ¬ (a.Plain ∧ (mergeBoth b r).Plain) := fun h => hbr (mergeBoth_plain_iff.1 h.2)
  rw [(mergeBoth_metrics habr).1, (mergeBoth_metrics habr').1, (mergeBoth_metrics hbr).1, hab.1, ha.1, hb.1] at hcount
  simp at hcount

/-- Where all orders and nestings agree, the metrics are grouped. -/
theorem grouped_of_total_eq {l : List (Option UsageSnapshot)}
    (h : ∀ n m : Nesting (Option UsageSnapshot), n.leaves.Perm l → m.leaves.Perm l → total n = total m) : Grouped l := by
  by_contra hgrouped
  simp only [Grouped, not_or, not_forall, Nat.not_le] at hgrouped
  obtain ⟨⟨c, hc, hplain⟩, hcount⟩ := hgrouped
  -- bring the three to the front
  obtain ⟨l₁, l₂, rfl⟩ := List.append_of_mem (List.reduceOption_mem_iff.1 hc)
  have hfront : (l₁ ++ some c :: l₂).Perm (some c :: (l₁ ++ l₂)) := List.perm_middle
  rw [plains_perm hfront, plains_cons_some, if_neg hplain, Nat.add_zero] at hcount
  obtain ⟨a, l₃, ha, hpermA, hcountA⟩ := exists_plain (by omega : 0 < plains (l₁ ++ l₂))
  obtain ⟨b, l₄, hb, hpermB, -⟩ := exists_plain (by omega : 0 < plains l₃)
  have hperm : ([some a, some b] ++ (some c :: l₄)).Perm (l₁ ++ some c :: l₂) := by
    refine List.Perm.trans ?_ hfront.symm
    refine List.perm_middle.trans (List.Perm.cons _ ?_)
    exact ((hpermB.symm.cons _).trans hpermA.symm)
  exact nesting_matters ha hb hplain l₄ (h _ _ (by simpa using hperm) (by simpa using hperm))

/-! ## Normalised snapshots -/

def UsageCostSnapshot.toValue (c : UsageCostSnapshot) : Value :=
  .record [("input", .num c.input), ("output", .num c.output), ("cacheRead", .num c.cacheRead),
    ("cacheWrite", .num c.cacheWrite), ("total", .num c.total)]

def numberOr : Option ℚ → Value
  | some q => .num q
  | none => .other

/-- A snapshot as a value that can be read. -/
def UsageSnapshot.toValue (u : UsageSnapshot) : Value :=
  .record [("input", .num u.input), ("output", .num u.output), ("reasoning", numberOr u.reasoning),
    ("cacheRead", .num u.cacheRead), ("cacheWrite", .num u.cacheWrite), ("totalTokens", .num u.totalTokens),
    ("cost", (u.cost.map UsageCostSnapshot.toValue).getD .other), ("requestCount", numberOr u.requestCount),
    ("maxInputTokens", numberOr u.maxInputTokens)]

/-- `null`, or a snapshot. -/
def toValue (u : Option UsageSnapshot) : Value := (u.map UsageSnapshot.toValue).getD .other

@[simp] theorem readFiniteNumber_num (q : ℚ) : readFiniteNumber (.num q) = some q := rfl

@[simp] theorem readFiniteNumber_numberOr (q : Option ℚ) : readFiniteNumber (numberOr q) = q := by cases q <;> rfl

theorem normalizeCost_toValue (c : Option UsageCostSnapshot) :
    normalizeUsageCostSnapshot ((c.map UsageCostSnapshot.toValue).getD .other) = c := by
  cases c with
  | none => rfl
  | some c => simp [normalizeUsageCostSnapshot, UsageCostSnapshot.toValue, parseRecord, field, readFiniteNumber, List.lookup_cons]

/-- Reading a snapshot back fills in the request metrics, and rounds and bounds them. -/
theorem normalize_toValue (u : UsageSnapshot) :
    normalizeUsageSnapshot u.toValue = some { u with
      requestCount := some (max 0 ⌊u.requestCount.getD 1⌋)
      maxInputTokens := some (match u.maxInputTokens with
        | some tokens => max 0 tokens
        | none => u.input) } := by
  simp only [normalizeUsageSnapshot, UsageSnapshot.toValue, parseRecord, field, List.lookup_cons, Option.getD_some,
    String.reduceBEq, List.any_cons, readFiniteNumber_num, readFiniteNumber_numberOr, normalizeCost_toValue]
  simp

/-- Metrics as a reader gives them. -/
structure Settled (u : UsageSnapshot) : Prop where
  requests : ∃ n : ℤ, 0 ≤ n ∧ u.requestCount = some (n : ℚ)
  maximum : ∃ q : ℚ, 0 ≤ q ∧ u.maxInputTokens = some q

theorem Settled.normalize {u : UsageSnapshot} (h : Settled u) : normalizeUsageSnapshot u.toValue = some u := by
  obtain ⟨⟨n, hn, hcount⟩, q, hq, hmax⟩ := h
  rw [normalize_toValue]
  refine congrArg some (UsageSnapshot.ext rfl rfl rfl rfl rfl rfl rfl ?_ ?_)
  · simp [hcount, hn]
  · simp [hmax, hq]

theorem Settled.mergeBoth {a b : UsageSnapshot} (ha : Settled a) (hb : Settled b) : Settled (mergeBoth a b) := by
  obtain ⟨⟨n, hn, hcount⟩, q, hq, hmax⟩ := ha
  obtain ⟨⟨n', hn', hcount'⟩, q', hq', hmax'⟩ := hb
  have hplain : ¬ (a.Plain ∧ b.Plain) := fun h => by simpa [hcount] using h.1.1
  obtain ⟨hsum, hmaximum⟩ := mergeBoth_metrics hplain
  refine ⟨⟨n + n', by omega, ?_⟩, max q q', le_max_of_le_left hq, ?_⟩
  · simp [hsum, hcount, hcount']
  · simp [hmaximum, hmax, hmax']

/-- A value whose maximum is taken from a negative input, unbounded. -/
def Unclamped (v : Value) : Prop :=
  ∃ record, parseRecord v = some record ∧ readFiniteNumber (field record "maxInputTokens") = none ∧
    (readFiniteNumber (field record "input")).getD 0 < 0

/-- What a reader makes of the request metrics. -/
theorem normalize_metrics {v : Value} {u : UsageSnapshot} (h : normalizeUsageSnapshot v = some u) :
    ∃ record, parseRecord v = some record ∧ u.input = (readFiniteNumber (field record "input")).getD 0 ∧
      (∃ n : ℤ, 0 ≤ n ∧ u.requestCount = some (n : ℚ)) ∧
      u.maxInputTokens = some (match readFiniteNumber (field record "maxInputTokens") with
        | some tokens => max 0 tokens
        | none => u.input) := by
  unfold normalizeUsageSnapshot at h
  cases hrecord : parseRecord v with
  | none => simp [hrecord] at h
  | some record =>
    rw [hrecord] at h
    dsimp only at h
    split at h
    · cases h
    · obtain rfl := Option.some.inj h
      refine ⟨record, rfl, rfl, ⟨max 0 ⌊(readFiniteNumber (field record "requestCount")).getD 1⌋, le_max_left _ _, ?_⟩, rfl⟩
      rw [Int.cast_max, Int.cast_zero]

theorem settled_iff {v : Value} {u : UsageSnapshot} (h : normalizeUsageSnapshot v = some u) : Settled u ↔ ¬ Unclamped v := by
  obtain ⟨record, hrecord, hinput, hcount, hmax⟩ := normalize_metrics h
  constructor
  · rintro ⟨-, q, hq, hmaximum⟩ ⟨record', hrecord', htokens, hnegative⟩
    obtain rfl : record = record' := Option.some.inj (hrecord.symm.trans hrecord')
    rw [htokens, hmaximum, hinput] at hmax
    have hq' : q = (readFiniteNumber (field record "input")).getD 0 := Option.some.inj hmax
    linarith
  · intro hclamped
    refine ⟨hcount, _, ?_, hmax⟩
    cases htokens : readFiniteNumber (field record "maxInputTokens") with
    | some tokens => exact le_max_left _ _
    | none => exact not_lt.1 fun hnegative => hclamped ⟨record, hrecord, htokens, hinput ▸ hnegative⟩

/-- Reading twice is reading once, unless a negative input stands in for the maximum. -/
theorem normalize_idempotent_iff (v : Value) :
    normalizeUsageSnapshot (toValue (normalizeUsageSnapshot v)) = normalizeUsageSnapshot v ↔ ¬ Unclamped v := by
  cases h : normalizeUsageSnapshot v with
  | none =>
    refine iff_of_true rfl ?_
    -- a negative input would be telemetry
    rintro ⟨record, hrecord, -, hnegative⟩
    have hinput : (readFiniteNumber (field record "input")).isSome = true := by
      cases hread : readFiniteNumber (field record "input") with
      | none => simp [hread] at hnegative
      | some q => rfl
    simp [normalizeUsageSnapshot, hrecord, hinput] at h
  | some u =>
    rw [← settled_iff h]
    refine ⟨fun heq => ?_, Settled.normalize⟩
    obtain ⟨record, hrecord, hinput, hcount, hmax⟩ := normalize_metrics h
    refine ⟨hcount, _, ?_, hmax⟩
    -- the maximum that is read back is bounded
    have hbounded : u.maxInputTokens = some (max 0 (u.maxInputTokens.getD 0)) := by
      have hread := (normalize_toValue u).symm.trans heq
      rw [hmax] at hread ⊢
      have htokens := congrArg (Option.map UsageSnapshot.maxInputTokens) hread
      rw [Option.map_some, Option.map_some, hmax] at htokens
      exact (Option.some.inj htokens).symm
    rw [hmax] at hbounded
    rw [Option.some.inj hbounded]
    exact le_max_left _ _

/-- Merges of what was read, with inputs that are not negative, read as they are. -/
theorem normalize_total {n : Nesting (Option UsageSnapshot)}
    (h : ∀ w ∈ n.leaves, (∃ v, w = normalizeUsageSnapshot v) ∧ ∀ u, w = some u → 0 ≤ u.input) :
    normalizeUsageSnapshot (toValue (total n)) = total n := by
  have hsettled : ∀ u, total n = some u → Settled u := by
    refine @Nesting.merge_mem _ _ (fun w => ∀ u, w = some u → Settled u) (fun a b ha hb u hu => ?_) n (fun w hw u hu => ?_)
    · cases a with
      | none => exact hb u (by simpa using hu)
      | some a =>
        cases b with
        | none => exact ha u (by simpa using hu)
        | some b =>
          obtain rfl : mergeBoth a b = u := by simpa using hu
          exact (ha a rfl).mergeBoth (hb b rfl)
    · obtain ⟨⟨v, rfl⟩, hinput⟩ := h w hw
      refine (settled_iff hu).2 ?_
      rintro ⟨record, hrecord, -, hnegative⟩
      obtain ⟨record', hrecord', hread, -⟩ := normalize_metrics hu
      obtain rfl : record = record' := Option.some.inj (hrecord.symm.trans hrecord')
      exact absurd (hinput u hu) (not_le.2 (hread ▸ hnegative))
  cases htotal : total n with
  | none => rfl
  | some u => exact (hsettled u htotal).normalize

/-- Totals of usage: they do not depend on order and nesting exactly where the request metrics
are grouped, and reading is idempotent exactly where no negative input becomes a maximum. -/
theorem usage_totals (a b : Option UsageSnapshot) (l : List (Option UsageSnapshot)) (v : Value)
    (merges : Nesting (Option UsageSnapshot)) :
    mergeUsageSnapshots a b = mergeUsageSnapshots b a ∧
    (mergeUsageSnapshots none a = a ∧ mergeUsageSnapshots a none = a) ∧
    ((∀ n m : Nesting (Option UsageSnapshot), n.leaves.Perm l → m.leaves.Perm l → total n = total m) ↔ Grouped l) ∧
    (normalizeUsageSnapshot (toValue (normalizeUsageSnapshot v)) = normalizeUsageSnapshot v ↔ ¬ Unclamped v) ∧
    ((∀ w ∈ merges.leaves, (∃ v, w = normalizeUsageSnapshot v) ∧ ∀ u, w = some u → 0 ≤ u.input) →
      normalizeUsageSnapshot (toValue (total merges)) = total merges) := by
  refine ⟨mergeUsageSnapshots_comm a b, ⟨by simp, by simp⟩, ⟨grouped_of_total_eq, ?_⟩,
    normalize_idempotent_iff v, normalize_total⟩
  intro hgrouped n m hn hm
  have hleaves : Grouped n.leaves := by
    rcases hgrouped with hplain | hcount
    · exact .inl fun u hu => hplain u ((hn.filterMap id).mem_iff.1 hu)
    · exact .inr (plains_perm hn ▸ hcount)
  exact total_perm (hn.trans hm.symm) hleaves

/-- One request of ten tokens, with or without its metrics. -/
def request (requestCount maxInputTokens : Option ℚ) : UsageSnapshot :=
  ⟨10, 0, none, 0, 0, 10, none, requestCount, maxInputTokens⟩

/-- Three requests count as two when the two without metrics are merged first; and a negative input
is a maximum only the second reading bounds. -/
theorem usage_totals_fails :
    mergeUsageSnapshots (mergeUsageSnapshots (some (request none none)) (some (request none none)))
        (some (request (some 1) (some 10))) ≠
      mergeUsageSnapshots (some (request none none))
        (mergeUsageSnapshots (some (request none none)) (some (request (some 1) (some 10)))) ∧
    normalizeUsageSnapshot (toValue (normalizeUsageSnapshot (.record [("input", .num (-5))]))) ≠
      normalizeUsageSnapshot (.record [("input", .num (-5))]) := by
  constructor
  · intro h
    have hcount := congrArg (Option.map UsageSnapshot.requestCount) h
    norm_num [mergeUsageSnapshots, mergeBoth, request] at hcount
  · refine mt (normalize_idempotent_iff _).1 (not_not.2 ⟨_, rfl, rfl, ?_⟩)
    simp [field, readFiniteNumber]

end Leitwerk.Protocol.UsageTotals
