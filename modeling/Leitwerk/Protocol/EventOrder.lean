import Leitwerk.Lib.Comparison
import Leitwerk.Protocol.LiveTurn
/-!
# The order in which recorded events are replayed

`compareProcessEventsChronologically` compares two sequence numbers when both
events carry one, and else times and ids. The two orders need not agree, so with
events of both kinds the comparison can go round in a circle. `Comparable` is
when it does not.
-/

namespace Leitwerk.Protocol

open Comparison

/-- `localeCompare` is a consistent comparison of strings. -/
structure Host.Collates (host : Host) : Prop where
  antisymmetric : Antisymmetric host.localeCompare
  trans : ∀ a b c, host.localeCompare a b ≤ 0 → host.localeCompare b c ≤ 0 → host.localeCompare a c ≤ 0

namespace LiveTurn

open JsString (lit)

/-- `ProcessEvent`. -/
structure ProcessEvent where
  eventSequence : Option Int
  id : JsString
  eventType : String
  data : Value
  createdAt : JsString

/-- `compareTimestampStrings`. -/
def compareTimestampStrings (host : Host) (left right : JsString) : Int :=
  match host.dateParse left, host.dateParse right with
  | some leftMs, some rightMs => leftMs - rightMs
  | _, _ => host.localeCompare left right

/-- The time of an event: the one in its payload, or that of its creation. -/
def ProcessEvent.timestamp (e : ProcessEvent) : JsString := readTimestamp (asWsEventPayloadRecord e.data) e.createdAt

/-- How times and ids compare. -/
def compareByTime (host : Host) (left right : ProcessEvent) : Int :=
  let timestampComparison := compareTimestampStrings host left.timestamp right.timestamp
  if timestampComparison ≠ 0 then timestampComparison
  else
    let createdAtComparison := compareTimestampStrings host left.createdAt right.createdAt
    if createdAtComparison ≠ 0 then createdAtComparison else host.localeCompare left.id right.id

/-- `compareProcessEventsChronologically`. -/
def compareProcessEventsChronologically (host : Host) (left right : ProcessEvent) : Int :=
  match left.eventSequence, right.eventSequence with
  | some leftSequence, some rightSequence => leftSequence - rightSequence
  | _, _ => compareByTime host left right

/-- `createLiveTurnProjection(events)`. -/
def createLiveTurnProjection (host : Host) (events : List ProcessEvent) : Projection :=
  Projection.create.run host ((sort (compareProcessEventsChronologically host) events).map fun event =>
    { eventType := event.eventType
      data := asWsEventPayloadRecord event.data
      fallbackTimestamp := event.createdAt })

/-- When the comparison orders the events. Ids are told apart where sequence
numbers do not decide, an event without a sequence number does not stand between
two others the other way round, and times do not go round in a circle, which
they can where some of them are dates and others are not (`no_circle_of_dates`). -/
structure Comparable (host : Host) (events : List ProcessEvent) : Prop where
  distinct : ∀ x ∈ events, ∀ y ∈ events, x ≠ y → x.eventSequence = none ∨ y.eventSequence = none →
    compareByTime host x y ≠ 0
  between : ∀ x ∈ events, ∀ y ∈ events, ∀ z ∈ events, ∀ m n, x.eventSequence = some m → y.eventSequence = some n →
    m < n → z.eventSequence = none → ¬ (compareByTime host y z < 0 ∧ compareByTime host z x < 0)
  noCircle : ∀ x ∈ events, ∀ y ∈ events, ∀ z ∈ events, x.eventSequence = none → y.eventSequence = none →
    ¬ (compareByTime host x y < 0 ∧ compareByTime host y z < 0 ∧ compareByTime host z x < 0)

/-! ## The sign of a comparison -/

theorem compareTimestampStrings_antisymm {host : Host} (hc : host.Collates) :
    Antisymmetric (compareTimestampStrings host) := by
  intro a b
  unfold compareTimestampStrings
  cases host.dateParse a <;> cases host.dateParse b
  all_goals first
    | exact hc.antisymmetric a b
    | (dsimp only; omega)

theorem compareByTime_antisymm {host : Host} (hc : host.Collates) : Antisymmetric (compareByTime host) := by
  intro a b
  have hts := compareTimestampStrings_antisymm hc a.timestamp b.timestamp
  have hts' := compareTimestampStrings_antisymm hc b.timestamp a.timestamp
  have hcr := compareTimestampStrings_antisymm hc a.createdAt b.createdAt
  have hcr' := compareTimestampStrings_antisymm hc b.createdAt a.createdAt
  have hid := hc.antisymmetric a.id b.id
  unfold compareByTime
  dsimp only
  split <;> split <;> try split
  all_goals try split
  all_goals omega

theorem compare_antisymm {host : Host} (hc : host.Collates) : Antisymmetric (compareProcessEventsChronologically host) := by
  intro a b
  unfold compareProcessEventsChronologically
  cases a.eventSequence <;> cases b.eventSequence
  all_goals first
    | exact compareByTime_antisymm hc a b
    | (dsimp only; omega)

theorem compare_of_sequences {host : Host} {x y : ProcessEvent} {m n : Int} (hx : x.eventSequence = some m)
    (hy : y.eventSequence = some n) : compareProcessEventsChronologically host x y = m - n := by
  unfold compareProcessEventsChronologically
  rw [hx, hy]

theorem compare_of_none {host : Host} {x y : ProcessEvent} (h : x.eventSequence = none ∨ y.eventSequence = none) :
    compareProcessEventsChronologically host x y = compareByTime host x y := by
  unfold compareProcessEventsChronologically
  rcases h with h | h <;> rw [h]
  cases x.eventSequence <;> rfl

/-! ## When it is an order -/

theorem Comparable.of_strictTotal {host : Host} (hc : host.Collates) {events : List ProcessEvent}
    (h : StrictTotalOn (compareProcessEventsChronologically host) events) : Comparable host events := by
  refine ⟨?_, ?_, ?_⟩
  · intro x hx y hy hne hnone heq
    rcases h.total x hx y hy hne with hlt | hlt
    · rw [compare_of_none hnone] at hlt
      omega
    · rw [compare_of_none hnone.symm] at hlt
      have := (compareByTime_antisymm hc y x).1 hlt
      omega
  · intro x hx y hy z hz m n hm hn hmn hnone
    rintro ⟨hyz, hzx⟩
    rw [← compare_of_none (.inr hnone)] at hyz
    rw [← compare_of_none (.inl hnone)] at hzx
    have hxy : compareProcessEventsChronologically host x y < 0 := by
      rw [compare_of_sequences hm hn]
      omega
    exact h.asymm z hz x hx hzx (h.trans x hx y hy z hz hxy hyz)
  · intro x hx y hy z hz hxn hyn
    rintro ⟨hxy, hyz, hzx⟩
    rw [← compare_of_none (.inl hxn)] at hxy
    rw [← compare_of_none (.inl hyn)] at hyz
    rw [← compare_of_none (.inr hxn)] at hzx
    exact h.asymm z hz x hx hzx (h.trans x hx y hy z hz hxy hyz)

/-- The sequence numbers of different events differ. -/
theorem sequence_inj {events : List ProcessEvent} (hseq : (events.filterMap (·.eventSequence)).Nodup)
    {x y : ProcessEvent} (hx : x ∈ events) (hy : y ∈ events) {n : Int} (hxn : x.eventSequence = some n)
    (hyn : y.eventSequence = some n) : x = y := by
  induction events with
  | nil => cases hx
  | cons e events ih =>
    have hmem : ∀ w ∈ events, w.eventSequence = some n → n ∈ events.filterMap (·.eventSequence) :=
      fun w hw hwn => List.mem_filterMap.2 ⟨w, hw, hwn⟩
    rcases List.mem_cons.1 hx with rfl | hx' <;> rcases List.mem_cons.1 hy with rfl | hy'
    · rfl
    · rw [List.filterMap_cons, hxn, List.nodup_cons] at hseq
      exact absurd (hmem y hy' hyn) hseq.1
    · rw [List.filterMap_cons, hyn, List.nodup_cons] at hseq
      exact absurd (hmem x hx' hxn) hseq.1
    · refine ih ?_ hx' hy'
      rw [List.filterMap_cons] at hseq
      split at hseq
      · exact hseq
      · exact (List.nodup_cons.1 hseq).2

theorem Comparable.strictTotal {host : Host} (hc : host.Collates) {events : List ProcessEvent}
    (hseq : (events.filterMap (·.eventSequence)).Nodup) (h : Comparable host events) :
    StrictTotalOn (compareProcessEventsChronologically host) events := by
  apply trans_of_acyclic (compare_antisymm hc)
  · intro x hx y hy hne
    cases hxs : x.eventSequence with
    | none =>
      have hdistinct := h.distinct x hx y hy hne (.inl hxs)
      have := compareByTime_antisymm hc x y
      have := compareByTime_antisymm hc y x
      rw [compare_of_none (.inl hxs), compare_of_none (.inr hxs)]
      omega
    | some m =>
      cases hys : y.eventSequence with
      | none =>
        have hdistinct := h.distinct x hx y hy hne (.inr hys)
        have := compareByTime_antisymm hc x y
        have := compareByTime_antisymm hc y x
        rw [compare_of_none (.inr hys), compare_of_none (.inl hys)]
        omega
      | some n =>
        have hmn : m ≠ n := by
          rintro rfl
          exact hne (sequence_inj hseq hx hy hxs hys)
        rw [compare_of_sequences hxs hys, compare_of_sequences hys hxs]
        omega
  · intro x hx y hy z hz
    rintro ⟨hxy, hyz, hzx⟩
    -- by the events that carry a sequence number: all three, two, or fewer
    cases hxs : x.eventSequence with
    | none =>
      rw [compare_of_none (.inl hxs)] at hxy
      rw [compare_of_none (.inr hxs)] at hzx
      cases hys : y.eventSequence with
      | none =>
        rw [compare_of_none (.inl hys)] at hyz
        exact h.noCircle x hx y hy z hz hxs hys ⟨hxy, hyz, hzx⟩
      | some n =>
        cases hzs : z.eventSequence with
        | none =>
          rw [compare_of_none (.inr hzs)] at hyz
          exact h.noCircle z hz x hx y hy hzs hxs ⟨hzx, hxy, hyz⟩
        | some k =>
          rw [compare_of_sequences hys hzs] at hyz
          exact h.between y hy z hz x hx n k hys hzs (by omega) hxs ⟨hzx, hxy⟩
    | some m =>
      cases hys : y.eventSequence with
      | none =>
        rw [compare_of_none (.inr hys)] at hxy
        rw [compare_of_none (.inl hys)] at hyz
        cases hzs : z.eventSequence with
        | none =>
          rw [compare_of_none (.inl hzs)] at hzx
          exact h.noCircle y hy z hz x hx hys hzs ⟨hyz, hzx, hxy⟩
        | some k =>
          rw [compare_of_sequences hzs hxs] at hzx
          exact h.between z hz x hx y hy k m hzs hxs (by omega) hys ⟨hxy, hyz⟩
      | some n =>
        rw [compare_of_sequences hxs hys] at hxy
        cases hzs : z.eventSequence with
        | none =>
          rw [compare_of_none (.inr hzs)] at hyz
          rw [compare_of_none (.inl hzs)] at hzx
          exact h.between x hx y hy z hz m n hxs hys (by omega) hzs ⟨hyz, hzx⟩
        | some k =>
          rw [compare_of_sequences hys hzs] at hyz
          rw [compare_of_sequences hzs hxs] at hzx
          omega

/-- Among dates, times do not go round in a circle. -/
theorem no_circle_of_dates {host : Host} (hc : host.Collates) {events : List ProcessEvent}
    (hdates : ∀ e ∈ events, (host.dateParse e.timestamp).isSome ∧ (host.dateParse e.createdAt).isSome) :
    ∀ x ∈ events, ∀ y ∈ events, ∀ z ∈ events,
      ¬ (compareByTime host x y < 0 ∧ compareByTime host y z < 0 ∧ compareByTime host z x < 0) := by
  intro x hx y hy z hz
  have hdate : ∀ e ∈ events, ∃ t c, host.dateParse e.timestamp = some t ∧ host.dateParse e.createdAt = some c := by
    intro e he
    obtain ⟨ht, hcr⟩ := hdates e he
    exact ⟨_, _, Option.eq_some_of_isSome ht, Option.eq_some_of_isSome hcr⟩
  obtain ⟨tx, cx, htx, hcx⟩ := hdate x hx
  obtain ⟨ty, cy, hty, hcy⟩ := hdate y hy
  obtain ⟨tz, cz, htz, hcz⟩ := hdate z hz
  have hid : ¬ (host.localeCompare x.id y.id < 0 ∧ host.localeCompare y.id z.id < 0 ∧ host.localeCompare z.id x.id < 0) := by
    rintro ⟨hxy, hyz, hzx⟩
    have hxz := hc.trans _ _ _ hxy.le hyz.le
    have := (hc.antisymmetric z.id x.id).1 hzx
    omega
  simp only [compareByTime, compareTimestampStrings, htx, hty, htz, hcx, hcy, hcz]
  rintro ⟨hxy, hyz, hzx⟩
  split at hxy <;> split at hyz <;> split at hzx <;> (try split at hxy) <;> (try split at hyz) <;> (try split at hzx) <;>
    omega

/-- A host that reads the milliseconds of the first second and collates words by
their first letter. -/
def clockHost : Host :=
  { number := fun _ => 0
    numberText := fun _ => []
    stringify := fun _ => []
    dateParse := fun s =>
      if s.take 20 = lit "1970-01-01T00:00:00." then
        some (((s.drop 20).take 3).foldl (fun ms u => 10 * ms + (u.toNat - 48 : Int)) 0)
      else none
    localeCompare := fun a b => (a.headD 0).toNat - (b.headD 0).toNat
    toLowerCase := id }

theorem clockHost_collates : clockHost.Collates := by
  constructor
  · intro a b
    simp only [clockHost]
    omega
  · intro a b c
    simp only [clockHost]
    omega

/-- A thinking delta. -/
def thinkingEvent (eventSequence : Option Int) (id createdAt : String) : ProcessEvent :=
  { eventSequence
    id := lit id
    eventType := "pi.stream.delta"
    data := .obj [("streamType", .str (lit "thinking")), ("text", .str (lit id))]
    createdAt := lit createdAt }

/-- The second of two recorded events carries an earlier time, and a legacy
event stands between the two times. -/
def circle : List ProcessEvent :=
  [thinkingEvent (some 1) "a" "1970-01-01T00:00:00.010Z", thinkingEvent (some 2) "b" "1970-01-01T00:00:00.001Z",
    thinkingEvent none "c" "1970-01-01T00:00:00.005Z"]

end LiveTurn

end Leitwerk.Protocol
