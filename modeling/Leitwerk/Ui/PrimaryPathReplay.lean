import Leitwerk.Ui.PrimaryPath
/-!
# Dropping earlier summaries

The buffer keeps the last summary of each turn. An earlier one only changes
what the later one overwrites: until then the two replays differ in the summary
of the active turn and in how far they have come (`Stale`).
-/

namespace Leitwerk.Ui

open Protocol.LiveTurn (CompactTurnSummary)

/-! ## The frames that are kept -/

/-- A later summary of the same turn follows. -/
def superseded (frame : PrimaryPathFrame) (rest : List PrimaryPathFrame) : Bool :=
  frame.summaryOf.isSome && rest.any fun later => decide (later.summaryOf = frame.summaryOf)

/-- The frames, with the last summary of each turn only. -/
def latestSummaries : List PrimaryPathFrame → List PrimaryPathFrame
  | [] => []
  | frame :: rest => if superseded frame rest then latestSummaries rest else frame :: latestSummaries rest

theorem latestSummaries_sublist (frames : List PrimaryPathFrame) : (latestSummaries frames).Sublist frames := by
  induction frames with
  | nil => exact List.Sublist.slnil
  | cons frame rest ih =>
    rw [latestSummaries]
    split
    · exact ih.cons frame
    · exact ih.cons_cons frame

theorem superseded_iff {frame : PrimaryPathFrame} {rest : List PrimaryPathFrame} :
    superseded frame rest = true ↔ ∃ id, frame.summaryOf = some id ∧ ∃ later ∈ rest, later.summaryOf = some id := by
  unfold superseded
  cases h : frame.summaryOf with
  | none => simp
  | some id => simp

/-- The frames that are left when `frame` comes in. -/
def unlessSummaryOf (frame : PrimaryPathFrame) (f : PrimaryPathFrame) : Bool :=
  decide (f.summaryOf = none ∨ f.summaryOf ≠ frame.summaryOf)

theorem latestSummaries_concat (frames : List PrimaryPathFrame) (frame : PrimaryPathFrame) :
    latestSummaries (frames ++ [frame]) = (latestSummaries frames).filter (unlessSummaryOf frame) ++ [frame] := by
  induction frames with
  | nil => simp [latestSummaries, superseded]
  | cons head rest ih =>
    have hsup : superseded head (rest ++ [frame]) = (superseded head rest || !unlessSummaryOf frame head) := by
      unfold superseded unlessSummaryOf
      cases h : head.summaryOf with
      | none => simp
      | some id => simp [eq_comm]
    rw [List.cons_append, latestSummaries, latestSummaries, hsup, ih]
    cases hs : superseded head rest with
    | true => simp
    | false =>
      cases hk : unlessSummaryOf frame head <;> simp [hk]

/-- No two kept frames are summaries of one turn. -/
theorem latestSummaries_unique (frames : List PrimaryPathFrame) :
    (latestSummaries frames).Pairwise fun a b => a.summaryOf = none ∨ a.summaryOf ≠ b.summaryOf := by
  induction frames with
  | nil => exact List.Pairwise.nil
  | cons frame rest ih =>
    rw [latestSummaries]
    split
    · exact ih
    · rename_i hs
      refine List.pairwise_cons.2 ⟨fun later hl => ?_, ih⟩
      cases h : frame.summaryOf with
      | none => exact .inl rfl
      | some id =>
        refine .inr fun heq => hs (superseded_iff.2 ⟨id, h, later, ?_, heq.symm⟩)
        exact (latestSummaries_sublist rest).subset hl

theorem eraseP_eq_filter {α : Type} {p : α → Bool} {l : List α} (h : l.Pairwise fun a b => ¬ (p a = true ∧ p b = true)) :
    l.eraseP p = l.filter fun a => !p a := by
  induction l with
  | nil => rfl
  | cons a l ih =>
    obtain ⟨hfirst, hrest⟩ := List.pairwise_cons.1 h
    cases hp : p a with
    | true =>
      have hall : l.filter (fun b => !p b) = l := by
        rw [List.filter_eq_self]
        intro b hb
        simpa [hp] using hfirst b hb
      simp [List.eraseP_cons_of_pos hp, hp, hall]
    | false => simp [hp, ih hrest]

/-- The buffer holds the frames with the last summary of each turn. -/
theorem buffered_eq_latestSummaries (frames : List PrimaryPathFrame) :
    frames.foldl bufferPrimaryPathFrame [] = latestSummaries frames := by
  induction frames using List.reverseRecOn with
  | nil => rfl
  | append_singleton frames frame ih =>
    rw [List.foldl_append, ih, latestSummaries_concat, List.foldl_cons, List.foldl_nil]
    unfold bufferPrimaryPathFrame
    cases h : frame.summaryOf with
    | none =>
      have hall : (latestSummaries frames).filter (unlessSummaryOf frame) = latestSummaries frames := by
        rw [List.filter_eq_self]
        intro f _
        unfold unlessSummaryOf
        rw [h]
        simp
      simp only [hall]
    | some id =>
      have hunique := (latestSummaries_unique frames).imp fun {a b} hab =>
        show ¬ (decide (a.summaryOf = some id) = true ∧ decide (b.summaryOf = some id) = true) by
          rintro ⟨ha, hb⟩
          simp only [decide_eq_true_eq] at ha hb
          rcases hab with hnone | hne
          · rw [ha] at hnone
            cases hnone
          · exact hne (ha.trans hb.symm)
      simp only [eraseP_eq_filter hunique]
      congr 1
      apply List.filter_congr
      intro f _
      unfold unlessSummaryOf
      rw [h]
      cases hf : f.summaryOf <;> simp

/-! ## What a frame does -/

section Apply

variable {snapshot : PrimaryPathSnapshot} {frame : PrimaryPathFrame}

/-- The snapshot with another active turn, come to another point. -/
def PrimaryPathSnapshot.withActive (snapshot : PrimaryPathSnapshot) (active : ActiveTurn) (through : Nat) : PrimaryPathSnapshot :=
  { snapshot with throughEventSequence := through, turnState := { snapshot.turnState with activeTurn := some active } }

theorem apply_early (hsome : frame.eventSequence.isSome = true) (h : frame.seq ≤ snapshot.throughEventSequence) :
    applyPrimaryPathFrame snapshot frame = snapshot := by
  obtain ⟨n, hn⟩ := Option.isSome_iff_exists.1 hsome
  have hle : n ≤ snapshot.throughEventSequence := by simpa [PrimaryPathFrame.seq, hn] using h
  simp [applyPrimaryPathFrame, hn, hle]

/-- A frame that is later than the snapshot. -/
theorem apply_late (hsome : frame.eventSequence.isSome = true) (h : snapshot.throughEventSequence < frame.seq) :
    applyPrimaryPathFrame snapshot frame =
      match frame.payload with
      | .summaryUpdated turnRecordId summary => applySummary snapshot frame.seq turnRecordId summary
      | .turnStarted turn =>
        { snapshot with
          throughEventSequence := frame.seq
          turnState := ⟨some turn.id, true, some (.started turn)⟩ }
      | payload =>
        if isFullDetail payload || committedElsewhere snapshot payload then snapshot
        else { applyMetadataFrame snapshot payload with throughEventSequence := frame.seq } := by
  obtain ⟨n, hn⟩ := Option.isSome_iff_exists.1 hsome
  have hlt : ¬ n ≤ snapshot.throughEventSequence := by simpa [PrimaryPathFrame.seq, hn] using h
  cases hpayload : frame.payload
  all_goals
    simp only [applyPrimaryPathFrame, hn, hpayload, Option.any_some, decide_eq_true_eq, hlt, if_false, Option.getD_some,
      PrimaryPathFrame.seq]

theorem applySummary_other {through : Nat} {id : String} {summary : CompactTurnSummary}
    (h : ∀ active, snapshot.turnState.activeTurn = some active → active.turnRecordId ≠ id) :
    applySummary snapshot through id summary = snapshot := by
  unfold applySummary
  cases ha : snapshot.turnState.activeTurn with
  | none => rfl
  | some active => simp [h active ha]

/-- A summary of the active turn that reaches further. -/
theorem applySummary_active {through : Nat} {active : ActiveTurn} {summary : CompactTurnSummary}
    (ha : snapshot.turnState.activeTurn = some active) (hfar : active.throughEventSequence < summary.throughEventSequence) :
    applySummary snapshot through active.turnRecordId summary = snapshot.withActive (active.summarized summary) through := by
  simp [applySummary, ha, Nat.not_le.2 hfar, PrimaryPathSnapshot.withActive]

/-- The other frames neither read nor change the active turn, unless they commit it. -/
theorem applyMetadataFrame_withActive {active : ActiveTurn} {through : Nat} {payload : PrimaryPathPayload}
    (hcommitted : ∀ turnRecord rootEntry currentLeaf, payload ≠ .assistantCommitted turnRecord rootEntry currentLeaf) :
    applyMetadataFrame (snapshot.withActive active through) payload =
      (applyMetadataFrame snapshot payload).withActive active through := by
  unfold applyMetadataFrame
  cases payload with
  | assistantCommitted turnRecord rootEntry currentLeaf => exact absurd rfl (hcommitted _ _ _)
  | labelChanged targetId label =>
    cases targetId with
    | none => rfl
    | some target =>
      have hentries : (snapshot.withActive active through).primaryPathEntries = snapshot.primaryPathEntries := rfl
      by_cases ht : target = "" ∨ target ∉ snapshot.primaryPathEntries
      · simp only [hentries, if_pos ht]
      · simp only [hentries, if_neg ht]
        cases label.filter (· ≠ "") <;> rfl
  | _ => rfl

theorem applyMetadataFrame_active {payload : PrimaryPathPayload}
    (hcommitted : ∀ turnRecord rootEntry currentLeaf, payload ≠ .assistantCommitted turnRecord rootEntry currentLeaf) :
    (applyMetadataFrame snapshot payload).turnState = snapshot.turnState := by
  unfold applyMetadataFrame
  cases payload with
  | assistantCommitted turnRecord rootEntry currentLeaf => exact absurd rfl (hcommitted _ _ _)
  | labelChanged targetId label =>
    cases targetId with
    | none => rfl
    | some target =>
      simp only
      split
      · rfl
      · split <;> rfl
  | _ => rfl

end Apply

/-! ## Two replays that differ in a summary to come -/

/-- `b` is `a` with an earlier summary of its active turn `id`, and a later summary of that turn is among the
frames to come. -/
structure Stale (a b : PrimaryPathSnapshot) (id : String) (rest : List PrimaryPathFrame) : Prop where
  differ : ∃ shown earlier through, a.turnState.activeTurn = some shown ∧ shown.turnRecordId = id ∧
    (∀ summary, earlier.summarized summary = shown.summarized summary) ∧ b = a.withActive earlier through ∧
    ∀ f ∈ rest, through < f.seq ∧ a.throughEventSequence < f.seq ∧ ∀ summary, f.payload = .summaryUpdated id summary →
      shown.throughEventSequence < summary.throughEventSequence ∧ earlier.throughEventSequence < summary.throughEventSequence
  coming : ∃ f ∈ rest, f.summaryOf = some id

/-- Frames as a log delivers them: numbered in order, later summaries of a turn reaching further. -/
structure InOrder (frames : List PrimaryPathFrame) : Prop where
  numbered : ∀ f ∈ frames, f.eventSequence.isSome = true
  sorted : frames.Pairwise fun a b => a.seq < b.seq
  reaching : frames.Pairwise fun a b => ∀ id s s', a.payload = .summaryUpdated id s → b.payload = .summaryUpdated id s' →
    s.throughEventSequence < s'.throughEventSequence

section Replays

variable {a b : PrimaryPathSnapshot} {id : String} {frame : PrimaryPathFrame} {rest : List PrimaryPathFrame}

theorem InOrder.tail (h : InOrder (frame :: rest)) : InOrder rest :=
  ⟨fun f hf => h.numbered f (List.mem_cons_of_mem _ hf), (List.pairwise_cons.1 h.sorted).2, (List.pairwise_cons.1 h.reaching).2⟩

theorem summaryOf_eq_some {f : PrimaryPathFrame} : f.summaryOf = some id ↔ ∃ summary, f.payload = .summaryUpdated id summary := by
  unfold PrimaryPathFrame.summaryOf
  cases f.payload <;> simp

/-- A frame that is no summary of the turn leaves the summary to come among the rest. -/
theorem Stale.pass (h : Stale a b id (frame :: rest)) (hne : frame.summaryOf ≠ some id) : Stale a b id rest := by
  obtain ⟨⟨shown, earlier, through, ha, hid, hsame, hb, hrest⟩, f, hf, hfs⟩ := h
  refine ⟨⟨shown, earlier, through, ha, hid, hsame, hb, fun g hg => hrest g (List.mem_cons_of_mem _ hg)⟩, f, ?_, hfs⟩
  rcases List.mem_cons.1 hf with rfl | hf
  · exact absurd hfs hne
  · exact hf

theorem summarized_turn {shown earlier : ActiveTurn} (h : ∀ summary, earlier.summarized summary = shown.summarized summary) :
    earlier.turnRecordId = shown.turnRecordId := by
  show (earlier.summarized shown.toCompactTurnSummary).turnRecordId = (shown.summarized shown.toCompactTurnSummary).turnRecordId
  rw [h]

/-- A summary that the buffer dropped makes the replays differ, for as long as the later one is to come. -/
theorem dropped_step (hord : InOrder (frame :: rest)) (hdropped : superseded frame rest = true)
    (h : a = b ∨ ∃ id, Stale a b id (frame :: rest)) :
    applyPrimaryPathFrame a frame = b ∨ ∃ id, Stale (applyPrimaryPathFrame a frame) b id rest := by
  obtain ⟨i, hi, hcoming⟩ := superseded_iff.1 hdropped
  obtain ⟨summary, hpayload⟩ := summaryOf_eq_some.1 hi
  have hsome := hord.numbered frame List.mem_cons_self
  have hafter := (List.pairwise_cons.1 hord.sorted).1
  have hreach := (List.pairwise_cons.1 hord.reaching).1
  rcases h with rfl | ⟨id, h⟩
  · by_cases hearly : frame.seq ≤ a.throughEventSequence
    · exact .inl (apply_early hsome hearly)
    rw [Nat.not_le] at hearly
    rw [apply_late hsome hearly, hpayload]
    simp only
    cases hactive : a.turnState.activeTurn with
    | none =>
      refine .inl (applySummary_other fun active ha => ?_)
      rw [hactive] at ha
      cases ha
    | some active =>
      by_cases hmine : active.turnRecordId = i ∧ active.throughEventSequence < summary.throughEventSequence
      · obtain ⟨rfl, hfar⟩ := hmine
        rw [applySummary_active hactive hfar]
        refine .inr ⟨active.turnRecordId, ⟨active.summarized summary, active, a.throughEventSequence, rfl, rfl, fun _ => rfl, ?_,
          fun f hf => ⟨Nat.lt_trans hearly (hafter f hf), hafter f hf, fun later hl => ?_⟩⟩, hcoming⟩
        · simp only [PrimaryPathSnapshot.withActive, ← hactive]
        · have hlt := hreach f hf _ _ _ hpayload hl
          exact ⟨hlt, Nat.lt_trans hfar hlt⟩
      · refine .inl ?_
        unfold applySummary
        rw [hactive]
        simp only
        rw [if_pos]
        rw [Classical.not_and_iff_not_or_not, Nat.not_lt] at hmine
        exact hmine
  · by_cases hid : frame.summaryOf = some id
    · obtain ⟨⟨shown, earlier, through, ha, hturn, hsame, hb, hrest⟩, -⟩ := h
      obtain rfl : i = id := Option.some.inj (hi.symm.trans hid)
      obtain ⟨-, hlate, hfar⟩ := hrest frame List.mem_cons_self
      have hshown := (hfar summary hpayload).1
      rw [apply_late hsome hlate, hpayload]
      simp only
      subst hturn
      rw [applySummary_active ha hshown]
      refine .inr ⟨shown.turnRecordId, ⟨shown.summarized summary, earlier, through, rfl, rfl, fun later => hsame later, ?_,
        fun f hf => ?_⟩, hcoming⟩
      · rw [hb]
        rfl
      · obtain ⟨hthrough, -, hlater⟩ := hrest f (List.mem_cons_of_mem _ hf)
        exact ⟨hthrough, hafter f hf, fun later hl => ⟨hreach f hf _ _ _ hpayload hl, (hlater later hl).2⟩⟩
    · have hlate : a.throughEventSequence < frame.seq := by
        obtain ⟨⟨shown, earlier, through, -, -, -, -, hrest⟩, -⟩ := h
        exact (hrest frame List.mem_cons_self).2.1
      have hsame : applyPrimaryPathFrame a frame = a := by
        obtain ⟨⟨shown, -, -, ha, hturn, -⟩, -⟩ := h
        rw [apply_late hsome hlate, hpayload]
        refine applySummary_other fun active hactive => ?_
        rw [ha] at hactive
        cases hactive
        rw [hturn]
        exact fun heq => hid (hi.trans (congrArg some heq.symm))
      rw [hsame]
      exact .inr ⟨id, h.pass hid⟩

/-- A frame both replays see either makes them agree or leaves them with the same difference. -/
theorem kept_step (hord : InOrder (frame :: rest)) (h : Stale a b id (frame :: rest)) :
    applyPrimaryPathFrame a frame = applyPrimaryPathFrame b frame ∨
      Stale (applyPrimaryPathFrame a frame) (applyPrimaryPathFrame b frame) id rest := by
  have hsome := hord.numbered frame List.mem_cons_self
  have hafter := (List.pairwise_cons.1 hord.sorted).1
  have hpass : frame.summaryOf ≠ some id → Stale a b id rest := h.pass
  obtain ⟨⟨shown, earlier, through, ha, rfl, hsame, rfl, hrest⟩, -⟩ := h
  obtain ⟨hthrough, hlate, hfar⟩ := hrest frame List.mem_cons_self
  have hactive : (a.withActive earlier through).turnState.activeTurn = some earlier := rfl
  have hturn := summarized_turn hsame
  have hlateEarlier : (a.withActive earlier through).throughEventSequence < frame.seq := hthrough
  rw [apply_late hsome hlate, apply_late hsome hlateEarlier]
  -- the frames that touch neither the active turn nor a summary
  have hmetadata : ∀ payload, frame.payload = payload → frame.summaryOf ≠ some shown.turnRecordId →
      (∀ turnRecord rootEntry currentLeaf, payload ≠ .assistantCommitted turnRecord rootEntry currentLeaf) →
      Stale { applyMetadataFrame a payload with throughEventSequence := frame.seq }
        { applyMetadataFrame (a.withActive earlier through) payload with throughEventSequence := frame.seq }
        shown.turnRecordId rest := by
    intro payload hpayload hne hcommitted
    rw [applyMetadataFrame_withActive hcommitted]
    obtain ⟨-, hcoming⟩ := hpass hne
    refine ⟨⟨shown, earlier, frame.seq, ?_, rfl, hsame, rfl, fun f hf => ⟨hafter f hf, hafter f hf, fun later hl =>
      (hrest f (List.mem_cons_of_mem _ hf)).2.2 later hl⟩⟩, hcoming⟩
    simp only [applyMetadataFrame_active hcommitted, ha]
  cases hp : frame.payload with
  | summaryUpdated i summary =>
    simp only
    by_cases hi : i = shown.turnRecordId
    · subst hi
      obtain ⟨hshown, hearlier⟩ := hfar summary hp
      rw [applySummary_active ha hshown, ← hturn, applySummary_active hactive hearlier, hsame]
      exact .inl rfl
    · have hne : frame.summaryOf ≠ some shown.turnRecordId := by simp [PrimaryPathFrame.summaryOf, hp, hi]
      rw [applySummary_other fun active hact => ?_, applySummary_other fun active hact => ?_]
      · exact .inr (hpass hne)
      · rw [hactive] at hact
        cases hact
        rw [hturn]
        exact fun heq => hi heq.symm
      · rw [ha] at hact
        cases hact
        exact fun heq => hi heq.symm
  | turnStarted turn => exact .inl rfl
  | assistantPartial => exact .inr (hpass (by simp [PrimaryPathFrame.summaryOf, hp]))
  | usageUpdated => exact .inr (hpass (by simp [PrimaryPathFrame.summaryOf, hp]))
  | toolCallStarted => exact .inr (hpass (by simp [PrimaryPathFrame.summaryOf, hp]))
  | toolCallCompleted => exact .inr (hpass (by simp [PrimaryPathFrame.summaryOf, hp]))
  | assistantCommitted turnRecord rootEntry currentLeaf =>
    have hne : frame.summaryOf ≠ some shown.turnRecordId := by simp [PrimaryPathFrame.summaryOf, hp]
    simp only [isFullDetail, committedElsewhere, ha, hactive, Option.any_some, hturn, Bool.false_or]
    split
    · exact .inr (hpass hne)
    · exact .inl rfl
  | turnAnnotationChanged note =>
    exact .inr (hmetadata _ hp (by simp [PrimaryPathFrame.summaryOf, hp]) (by simp))
  | labelChanged targetId label =>
    exact .inr (hmetadata _ hp (by simp [PrimaryPathFrame.summaryOf, hp]) (by simp))
  | changed rootEntry currentLeaf =>
    exact .inr (hmetadata _ hp (by simp [PrimaryPathFrame.summaryOf, hp]) (by simp))

/-- Leaving out the earlier summaries changes nothing. -/
theorem replay_latestSummaries : ∀ {frames : List PrimaryPathFrame}, InOrder frames → ∀ {a b : PrimaryPathSnapshot},
    (a = b ∨ ∃ id, Stale a b id frames) →
    frames.foldl applyPrimaryPathFrame a = (latestSummaries frames).foldl applyPrimaryPathFrame b := by
  intro frames
  induction frames with
  | nil =>
    rintro - a b (rfl | ⟨id, -, f, hf, -⟩)
    · rfl
    · simp at hf
  | cons frame rest ih =>
    intro hord a b h
    rw [latestSummaries, List.foldl_cons]
    cases hs : superseded frame rest with
    | true => exact ih hord.tail (dropped_step hord hs h)
    | false =>
      rw [if_neg Bool.false_ne_true, List.foldl_cons]
      refine ih hord.tail ?_
      rcases h with rfl | ⟨id, h⟩
      · exact .inl rfl
      · exact (kept_step hord h).imp_right fun hstale => ⟨id, hstale⟩

end Replays

/-! ## Replaying in any order -/

section Order

variable {frames handed : List PrimaryPathFrame} (compareTimestampStrings : String → String → Int)

/-- Sorting the handed frames gives them in the order of the log. -/
theorem mergeSort_handed (hnumbered : ∀ f ∈ frames, f.eventSequence.isSome = true) (hsorted : frames.Pairwise fun a b => a.seq < b.seq)
    (hperm : handed.Perm frames) :
    handed.mergeSort (fun a b => decide (compareFrames compareTimestampStrings a b ≤ 0)) = frames := by
  have hcompare : ∀ a ∈ handed, ∀ b ∈ handed,
      decide (compareFrames compareTimestampStrings a b ≤ 0) = decide ((id a).seq ≤ (id b).seq) := by
    intro a ha b hb
    obtain ⟨m, hm⟩ := Option.isSome_iff_exists.1 (hnumbered a (hperm.subset ha))
    obtain ⟨n, hn⟩ := Option.isSome_iff_exists.1 (hnumbered b (hperm.subset hb))
    simp only [compareFrames, hm, hn, PrimaryPathFrame.seq, Option.getD_some, decide_eq_decide, id]
    omega
  have hids : (handed.mergeSort fun a b => decide (compareFrames compareTimestampStrings a b ≤ 0)).map id =
      (handed.map id).mergeSort fun a b => decide (a.seq ≤ b.seq) := List.map_mergeSort hcompare
  rw [List.map_id, List.map_id] at hids
  rw [hids]
  have hdistinct : (frames.map PrimaryPathFrame.seq).Nodup :=
    List.pairwise_map.2 (hsorted.imp fun hlt => Nat.ne_of_lt hlt)
  refine List.Perm.eq_of_pairwise (fun a b ha hb hab hba => ?_)
    (List.pairwise_mergeSort (fun a b c hab hbc => ?_) (fun a b => ?_) handed)
    (hsorted.imp fun hlt => by simpa using Nat.le_of_lt hlt) ((List.mergeSort_perm _ _).trans hperm)
  · simp only [decide_eq_true_eq] at hab hba
    exact List.inj_on_of_nodup_map hdistinct (hperm.subset (List.mem_mergeSort.1 ha)) hb (Nat.le_antisymm hab hba)
  · simp only [decide_eq_true_eq] at hab hbc ⊢
    exact Nat.le_trans hab hbc
  · simpa using Nat.le_total a.seq b.seq

/-- Replaying handed frames applies them in the order of the log. -/
theorem replay_eq (hord : InOrder frames) (hperm : handed.Perm frames) (snapshot : PrimaryPathSnapshot) :
    replayPrimaryPathFramesAfterSnapshot compareTimestampStrings snapshot handed = frames.foldl applyPrimaryPathFrame snapshot := by
  unfold replayPrimaryPathFramesAfterSnapshot
  rw [mergeSort_handed compareTimestampStrings hord.numbered hord.sorted hperm]
  apply List.foldl_ext
  intro next frame hf
  have hsome := hord.numbered frame hf
  obtain ⟨n, hn⟩ := Option.isSome_iff_exists.1 hsome
  unfold shouldReplayPrimaryPathFrameAfterSnapshot
  simp only [hn, decide_eq_true_eq]
  split
  · rfl
  · rename_i hle
    refine (apply_early hsome ?_).symm
    simpa [PrimaryPathFrame.seq, hn] using hle

theorem foldl_early {snapshot : PrimaryPathSnapshot} (hnumbered : ∀ f ∈ frames, f.eventSequence.isSome = true)
    (hearly : ∀ f ∈ frames, f.seq ≤ snapshot.throughEventSequence) : frames.foldl applyPrimaryPathFrame snapshot = snapshot := by
  induction frames with
  | nil => rfl
  | cons frame rest ih =>
    rw [List.foldl_cons, apply_early (hnumbered frame List.mem_cons_self) (hearly frame List.mem_cons_self)]
    exact ih (fun f hf => hnumbered f (List.mem_cons_of_mem _ hf)) fun f hf => hearly f (List.mem_cons_of_mem _ hf)

theorem InOrder.sublist {frames' : List PrimaryPathFrame} (h : InOrder frames) (hs : frames'.Sublist frames) : InOrder frames' :=
  ⟨fun f hf => h.numbered f (hs.subset hf), h.sorted.sublist hs, h.reaching.sublist hs⟩

/-- The frames the buffer collected while a snapshot was loading give what all received frames give: those
received before are in the snapshot. -/
theorem replay_buffered {earlier loading received : List PrimaryPathFrame} {snapshot : PrimaryPathSnapshot}
    (hord : InOrder (earlier ++ loading)) (hearly : ∀ f ∈ earlier, f.seq ≤ snapshot.throughEventSequence)
    (hhanded : handed.Perm (loading.foldl bufferPrimaryPathFrame [])) (hreceived : received.Perm (earlier ++ loading)) :
    replayPrimaryPathFramesAfterSnapshot compareTimestampStrings snapshot handed =
      replayPrimaryPathFramesAfterSnapshot compareTimestampStrings snapshot received := by
  have hloading : InOrder loading := hord.sublist (List.sublist_append_right _ _)
  rw [buffered_eq_latestSummaries] at hhanded
  rw [replay_eq compareTimestampStrings (hloading.sublist (latestSummaries_sublist loading)) hhanded,
    replay_eq compareTimestampStrings hord hreceived, List.foldl_append,
    foldl_early (fun f hf => hord.numbered f (List.mem_append_left _ hf)) hearly]
  exact (replay_latestSummaries hloading (.inl rfl)).symm

end Order

end Leitwerk.Ui
