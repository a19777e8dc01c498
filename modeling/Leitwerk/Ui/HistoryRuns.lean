import Leitwerk.Ui.ReasoningHistory
/-!
# A history beside the log

The log of a process grows, its frames are delivered in order, and snapshots of
a turn are asked for one at a time; a response is computed at some later point
of the log. What the history shows is then its base, the last accepted
response, followed by the later frames of the turn that were delivered.
-/

namespace Leitwerk.Ui

open Protocol Protocol.LiveTurn

/-! ## Runs -/

/-- A request under way: how much was logged and how much delivered when it was sent. -/
structure Request where
  logged : Nat
  delivered : Nat

/-- What the last accepted response gave the history. -/
structure Base where
  view : View
  boundary : Nat
  committed : Bool

structure World where
  log : List WsFrame
  delivered : Nat
  sent : Option Request
  history : ReasoningHistory
  base : Base

/-- `latestSequence` of a part of the log. -/
def latestSequence (log : List WsFrame) : Nat := (log.getLast?.map WsFrame.seq).getD 0

def World.initial (instanceId : String) (turnRecordId : JsString) : World where
  log := []
  delivered := 0
  sent := none
  history := .create instanceId turnRecordId
  base := ⟨(ReasoningHistory.create instanceId turnRecordId).toView, 0, false⟩

/-- The base a response gives: a response without events leaves those that are shown. -/
def Base.of (h : ReasoningHistory) (response : Response) : Base :=
  ⟨(h.rebase response).toView, response.throughEventSequence, response.committed⟩

inductive Step (host : Host) : World → World → Prop
  | append {w : World} {frame : WsFrame} (hsome : frame.eventSequence.isSome) (hlater : ∀ g ∈ w.log, g.seq < frame.seq) :
      Step host w { w with log := w.log ++ [frame] }
  | deliver {w : World} {frame : WsFrame} (hnext : w.log[w.delivered]? = some frame) :
      Step host w { w with delivered := w.delivered + 1, history := (w.history.push host frame).1 }
  /-- A frame of another process, or one without a sequence number. -/
  | foreign {w : World} {frame : WsFrame} (hforeign : frame.instanceId ≠ w.history.instanceId ∨ frame.eventSequence = none) :
      Step host w { w with history := (w.history.push host frame).1 }
  | request {w : World} (hnone : w.sent = none) :
      Step host w { w with sent := some ⟨w.log.length, w.delivered⟩, history := w.history.beginRequest }
  /-- The response reflects a point of the log that is not before the request. -/
  | respond {w : World} {request : Request} {response : Response} {k : Nat} {history : ReasoningHistory}
      (hsent : w.sent = some request) (hpoint : request.logged ≤ k) (hk : k ≤ w.log.length)
      (hthrough : response.throughEventSequence = latestSequence (w.log.take k))
      (haccept : w.history.accept host response = .ok history) :
      Step host w { w with sent := none, history := history, base := .of w.history response }
  | fail {w : World} (hsent : w.sent.isSome) :
      Step host w { w with sent := none, history := w.history.failedRequest }

inductive Reachable (host : Host) (instanceId : String) (turnRecordId : JsString) : World → Prop
  | initial : Reachable host instanceId turnRecordId (.initial instanceId turnRecordId)
  | step {w w' : World} (h : Reachable host instanceId turnRecordId w) (hs : Step host w w') :
      Reachable host instanceId turnRecordId w'

/-- The frames of the turn later than the base among those delivered, in the order of the log. -/
def World.later (w : World) (instanceId : String) (turnRecordId : JsString) : List WsFrame :=
  (w.log.take w.delivered).filter fun frame => frame.concerns instanceId turnRecordId && decide (w.base.boundary < frame.seq)

/-- The base, followed by the later frames unless the response was committed. -/
def World.expected (host : Host) (w : World) (instanceId : String) (turnRecordId : JsString) : View :=
  if w.base.committed then w.base.view
  else (w.later instanceId turnRecordId).foldl (View.record host instanceId) w.base.view

/-! ## What an operation does to the view -/

section Operations

variable {host : Host}

theorem concerns_some {frame : WsFrame} {instanceId : String} {turnRecordId : JsString}
    (h : frame.concerns instanceId turnRecordId = true) : frame.instanceId = instanceId ∧ frame.eventSequence.isSome = true := by
  simp only [WsFrame.concerns, Bool.and_eq_true, decide_eq_true_eq] at h
  exact ⟨h.1.1.1, h.1.2⟩

/-- A frame that has a number is taken in unless the history is committed or has come as far. -/
theorem apply_eq (host : Host) (h : ReasoningHistory) {frame : WsFrame} (hsome : frame.eventSequence.isSome = true) :
    (h.apply host frame).1 =
      if h.committed = true ∨ frame.seq ≤ h.boundary then h
      else { h with toView := h.toView.record host h.instanceId frame, boundary := frame.seq } := by
  unfold ReasoningHistory.apply
  have hnone : frame.eventSequence.isNone = false := Option.isNone_eq_false_iff.2 hsome
  rw [hnone]
  by_cases hc : h.committed = true <;> by_cases hb : frame.seq ≤ h.boundary <;> simp [hc, hb]

/-- `h'` is `h` after it took in those of the frames that are later than its boundary. -/
structure TakesIn (host : Host) (h : ReasoningHistory) (frames : List WsFrame) (h' : ReasoningHistory) : Prop where
  view : h'.toView = (frames.filter fun f => decide (h.boundary < f.seq)).foldl (View.record host h.instanceId) h.toView
  instanceId : h'.instanceId = h.instanceId
  turnRecordId : h'.turnRecordId = h.turnRecordId
  pending : h'.pending = h.pending
  committed : h'.committed = false
  boundary_le : h.boundary ≤ h'.boundary
  boundary : h'.boundary = h.boundary ∨ ∃ f ∈ frames, f.seq = h'.boundary

/-- Frames in order are taken in from the first that is later. -/
theorem takesIn_foldl (host : Host) {frames : List WsFrame} (hsome : ∀ f ∈ frames, f.eventSequence.isSome = true)
    (hsorted : frames.Pairwise fun a b => a.seq < b.seq) :
    ∀ h : ReasoningHistory, h.committed = false →
      TakesIn host h frames (frames.foldl (fun h frame => (h.apply host frame).1) h) := by
  induction frames with
  | nil =>
    intro h hc
    exact ⟨rfl, rfl, rfl, rfl, hc, Nat.le_refl _, .inl rfl⟩
  | cons frame frames ih =>
    intro h hc
    obtain ⟨hfirst, hrest⟩ := List.pairwise_cons.1 hsorted
    have hstep := apply_eq host h (hsome frame List.mem_cons_self)
    have ih := ih (fun f hf => hsome f (List.mem_cons_of_mem _ hf)) hrest
    rw [List.foldl_cons, hstep]
    by_cases hb : frame.seq ≤ h.boundary
    · rw [if_pos (.inr hb)]
      obtain ⟨hview, hi, ht, hp, hc', hle, hat⟩ := ih h hc
      refine ⟨?_, hi, ht, hp, hc', hle, hat.imp_right fun ⟨f, hf, hfs⟩ => ⟨f, List.mem_cons_of_mem _ hf, hfs⟩⟩
      rw [hview, List.filter_cons_of_neg (by simpa using hb)]
    · rw [if_neg (by simp [hc, hb])]
      obtain ⟨hview, hi, ht, hp, hc', hle, hat⟩ :=
        ih { h with toView := h.toView.record host h.instanceId frame, boundary := frame.seq } hc
      have hlater : frames.filter (fun f => decide (frame.seq < f.seq)) = frames.filter fun f => decide (h.boundary < f.seq) := by
        apply List.filter_congr
        intro f hf
        have hlt := hfirst f hf
        simp only [decide_eq_decide]
        omega
      refine ⟨?_, hi, ht, hp, hc', Nat.le_trans (Nat.le_of_not_le hb) hle, .inr ?_⟩
      · rw [hview, List.filter_cons_of_pos (by simpa using hb), List.foldl_cons]
        simp only [hlater]
      · rcases hat with hat | ⟨f, hf, hfs⟩
        · exact ⟨frame, List.mem_cons_self, hat.symm⟩
        · exact ⟨f, List.mem_cons_of_mem _ hf, hfs⟩

/-- A committed history takes nothing in. -/
theorem foldl_committed {frames : List WsFrame} :
    ∀ h : ReasoningHistory, h.committed = true → frames.foldl (fun h frame => (h.apply host frame).1) h = h := by
  induction frames with
  | nil => exact fun _ _ => rfl
  | cons frame frames ih =>
    intro h hc
    have hstep : (h.apply host frame).1 = h := by
      simp [ReasoningHistory.apply, hc]
    rw [List.foldl_cons, hstep]
    exact ih h hc

end Operations

/-! ## The invariant -/

/-- What holds after every step: the history shows what is expected, it has not come further than what was
delivered, and it buffers the frames delivered since the request under way. -/
structure Following (host : Host) (instanceId : String) (turnRecordId : JsString) (w : World) : Prop where
  numbered : ∀ f ∈ w.log, f.eventSequence.isSome = true
  sorted : w.log.Pairwise fun a b => a.seq < b.seq
  delivered : w.delivered ≤ w.log.length
  owner : w.history.instanceId = instanceId
  turn : w.history.turnRecordId = turnRecordId
  pending : w.history.pending = w.sent.isSome
  committed : w.history.committed = w.base.committed
  view : w.history.toView = w.expected host instanceId turnRecordId
  boundary_le : w.base.boundary ≤ w.history.boundary
  boundary : w.history.boundary = w.base.boundary ∨ ∃ f ∈ w.log.take w.delivered, f.seq = w.history.boundary
  request : ∀ r, w.sent = some r → r.delivered ≤ r.logged ∧ r.delivered ≤ w.delivered
  buffered : w.history.buffered = (w.sent.elim [] fun r => ((w.log.take w.delivered).drop r.delivered).filter
    (·.concerns instanceId turnRecordId)).map fun f => (f.seq, f)

section Preservation

variable {host : Host} {instanceId : String} {turnRecordId : JsString} {w : World}

theorem take_succ {log : List WsFrame} {n : Nat} {frame : WsFrame} (h : log[n]? = some frame) :
    log.take (n + 1) = log.take n ++ [frame] := by
  rw [List.take_add_one, h]
  rfl

/-- What was delivered comes before the next frame. -/
theorem delivered_lt {frame f : WsFrame} (hsorted : w.log.Pairwise fun a b => a.seq < b.seq)
    (hnext : w.log[w.delivered]? = some frame) (hf : f ∈ w.log.take w.delivered) : f.seq < frame.seq := by
  have hpre : (w.log.take (w.delivered + 1)).Pairwise fun a b => a.seq < b.seq := hsorted.sublist (List.take_sublist _ _)
  rw [take_succ hnext, List.pairwise_append] at hpre
  exact hpre.2.2 f hf frame (by simp)

theorem later_append {frame : WsFrame} (hd : w.delivered ≤ w.log.length) (instanceId : String) (turnRecordId : JsString) :
    World.later { w with log := w.log ++ [frame] } instanceId turnRecordId = w.later instanceId turnRecordId := by
  unfold World.later
  simp only [List.take_append_of_le_length hd]

/-- A frame that does not concern the turn changes nothing. -/
theorem push_other {h : ReasoningHistory} {frame : WsFrame} (hc : frame.concerns h.instanceId h.turnRecordId = false) :
    (h.push host frame).1 = h := by
  simp [ReasoningHistory.push, hc]

theorem Following.append (h : Following host instanceId turnRecordId w) {frame : WsFrame} (hsome : frame.eventSequence.isSome)
    (hlater : ∀ g ∈ w.log, g.seq < frame.seq) :
    Following host instanceId turnRecordId { w with log := w.log ++ [frame] } := by
  have htake : (w.log ++ [frame]).take w.delivered = w.log.take w.delivered := List.take_append_of_le_length h.delivered
  refine ⟨?_, ?_, ?_, h.owner, h.turn, h.pending, h.committed, ?_, h.boundary_le, ?_, h.request, ?_⟩
  · intro f hf
    rcases List.mem_append.1 hf with hf | hf
    · exact h.numbered f hf
    · rw [List.mem_singleton.1 hf]
      exact hsome
  · refine List.pairwise_append.2 ⟨h.sorted, List.pairwise_singleton _ _, fun g hg f hf => ?_⟩
    rw [List.mem_singleton.1 hf]
    exact hlater g hg
  · simp only [List.length_append]
    exact Nat.le_trans h.delivered (Nat.le_add_right _ _)
  · rw [h.view]
    unfold World.expected
    rw [later_append h.delivered]
  · simp only [htake]
    exact h.boundary
  · simp only [htake]
    exact h.buffered

/-- A frame is taken in exactly when it is later than the base. -/
theorem Following.late_iff (h : Following host instanceId turnRecordId w) {frame : WsFrame}
    (hnext : w.log[w.delivered]? = some frame) : frame.seq ≤ w.history.boundary ↔ frame.seq ≤ w.base.boundary := by
  constructor
  · intro hle
    rcases h.boundary with hb | ⟨f, hf, hfs⟩
    · rwa [hb] at hle
    · have hlt := delivered_lt h.sorted hnext hf
      omega
  · exact fun hle => Nat.le_trans hle h.boundary_le

/-- The buffer after a frame that concerns the turn. -/
theorem Following.buffer (h : Following host instanceId turnRecordId w) {frame : WsFrame}
    (hnext : w.log[w.delivered]? = some frame) (hc : frame.concerns instanceId turnRecordId = true) :
    (if w.history.pending then setField w.history.buffered frame.seq frame else w.history.buffered) =
      (w.sent.elim [] fun r => ((w.log.take (w.delivered + 1)).drop r.delivered).filter
        (·.concerns instanceId turnRecordId)).map fun f => (f.seq, f) := by
  rw [h.pending, h.buffered, take_succ hnext]
  cases hs : w.sent with
  | none => rfl
  | some r =>
    obtain ⟨-, hr⟩ := h.request r hs
    have hlength : (w.log.take w.delivered).length = w.delivered := List.length_take_of_le h.delivered
    simp only [Option.isSome_some, if_true, Option.elim_some]
    have hone : [frame].filter (·.concerns instanceId turnRecordId) = [frame] := by simp [hc]
    rw [List.drop_append_of_le_length (by omega), List.filter_append, List.map_append, hone]
    have hnew : frame.seq ∉ ((((w.log.take w.delivered).drop r.delivered).filter (·.concerns instanceId turnRecordId)).map
        fun f => (f.seq, f)).map Prod.fst := by
      intro hmem
      simp only [List.map_map, List.mem_map, List.mem_filter, Function.comp] at hmem
      obtain ⟨f, ⟨hf, -⟩, hfs⟩ := hmem
      have hlt := delivered_lt h.sorted hnext (List.mem_of_mem_drop hf)
      omega
    unfold setField
    rw [if_neg hnew]
    rfl

/-- The next frame is part of what the history is expected to show when it concerns the turn and is later. -/
theorem later_deliver (instanceId : String) (turnRecordId : JsString) {frame : WsFrame} (hnext : w.log[w.delivered]? = some frame) (history : ReasoningHistory) :
    World.later { w with delivered := w.delivered + 1, history := history } instanceId turnRecordId =
      w.later instanceId turnRecordId ++
        if frame.concerns instanceId turnRecordId = true ∧ w.base.boundary < frame.seq then [frame] else [] := by
  unfold World.later
  simp only [take_succ hnext, List.filter_append, List.filter_cons, List.filter_nil, Bool.and_eq_true, decide_eq_true_eq]

theorem Following.deliver_other (h : Following host instanceId turnRecordId w) {frame : WsFrame}
    (hnext : w.log[w.delivered]? = some frame) (hc : frame.concerns instanceId turnRecordId = false) :
    Following host instanceId turnRecordId { w with delivered := w.delivered + 1 } := by
  have hlt : w.delivered < w.log.length := (List.getElem?_eq_some_iff.1 hnext).1
  refine ⟨h.numbered, h.sorted, hlt, h.owner, h.turn, h.pending, h.committed, ?_, h.boundary_le, ?_, ?_, ?_⟩
  · have hlater := later_deliver instanceId turnRecordId hnext w.history
    rw [hc] at hlater
    rw [h.view]
    unfold World.expected
    rw [hlater]
    simp
  · refine h.boundary.imp_right fun ⟨f, hf, hfs⟩ => ⟨f, ?_, hfs⟩
    simp only [take_succ hnext]
    exact List.mem_append_left _ hf
  · intro r hr
    obtain ⟨hlogged, hdelivered⟩ := h.request r hr
    exact ⟨hlogged, Nat.le_succ_of_le hdelivered⟩
  · rw [h.buffered]
    simp only [take_succ hnext]
    cases hs : w.sent with
    | none => rfl
    | some r =>
      obtain ⟨-, hr⟩ := h.request r hs
      have hlength : (w.log.take w.delivered).length = w.delivered := List.length_take_of_le h.delivered
      simp only [Option.elim_some]
      rw [List.drop_append_of_le_length (by omega), List.filter_append]
      simp [hc]

theorem Following.deliver (h : Following host instanceId turnRecordId w) {frame : WsFrame} (hnext : w.log[w.delivered]? = some frame) :
    Following host instanceId turnRecordId { w with delivered := w.delivered + 1, history := (w.history.push host frame).1 } := by
  cases hc : frame.concerns instanceId turnRecordId with
  | false =>
    rw [push_other (by rw [h.owner, h.turn]; exact hc)]
    exact h.deliver_other hnext hc
  | true =>
    have hlt : w.delivered < w.log.length := (List.getElem?_eq_some_iff.1 hnext).1
    have hmem : frame ∈ w.log.take (w.delivered + 1) := by
      rw [take_succ hnext]
      simp
    have hpush : (w.history.push host frame).1 =
        if w.base.committed = true ∨ frame.seq ≤ w.base.boundary then
          { w.history with buffered := if w.history.pending then setField w.history.buffered frame.seq frame else w.history.buffered }
        else
          { w.history with
            toView := w.history.toView.record host w.history.instanceId frame
            boundary := frame.seq
            buffered := if w.history.pending then setField w.history.buffered frame.seq frame else w.history.buffered } := by
      have hmine : frame.concerns w.history.instanceId w.history.turnRecordId = true := by rwa [h.owner, h.turn]
      unfold ReasoningHistory.push
      rw [if_pos hmine, apply_eq host _ (concerns_some hc).2]
      have hcond : (w.history.committed = true ∨ frame.seq ≤ w.history.boundary) ↔
          (w.base.committed = true ∨ frame.seq ≤ w.base.boundary) := by rw [h.committed, h.late_iff hnext]
      by_cases hlate : w.base.committed = true ∨ frame.seq ≤ w.base.boundary
      · rw [if_pos hlate, if_pos (hcond.2 hlate)]
      · rw [if_neg hlate, if_neg fun hl => hlate (hcond.1 hl)]
    rw [hpush, h.buffer hnext hc]
    have hrequest : ∀ r, w.sent = some r → r.delivered ≤ r.logged ∧ r.delivered ≤ w.delivered + 1 :=
      fun r hr => ⟨(h.request r hr).1, Nat.le_succ_of_le (h.request r hr).2⟩
    have hlater := fun history => later_deliver instanceId turnRecordId hnext history
    simp only [hc, true_and] at hlater
    split
    · rename_i hlate
      refine ⟨h.numbered, h.sorted, hlt, h.owner, h.turn, h.pending, h.committed, ?_, h.boundary_le, ?_, hrequest, rfl⟩
      · simp only [h.view]
        unfold World.expected
        simp only [hlater]
        rcases hlate with hcommitted | hle
        · simp [hcommitted]
        · simp [Nat.not_lt.2 hle]
      · refine h.boundary.imp_right fun ⟨f, hf, hfs⟩ => ⟨f, ?_, hfs⟩
        simp only [take_succ hnext]
        exact List.mem_append_left _ hf
    · rename_i hlate
      rw [not_or, Bool.not_eq_true, Nat.not_le] at hlate
      refine ⟨h.numbered, h.sorted, hlt, h.owner, h.turn, h.pending, h.committed, ?_, Nat.le_of_lt hlate.2,
        .inr ⟨frame, hmem, rfl⟩, hrequest, rfl⟩
      simp only [h.view, h.owner]
      unfold World.expected
      simp only [hlater, hlate.1, hlate.2, Bool.false_eq_true, if_false, if_true, List.foldl_append, List.foldl_cons, List.foldl_nil]

/-- What was delivered when the request was sent is reflected in its response. -/
theorem seq_le_latest {log : List WsFrame} {d k : Nat} (hsorted : log.Pairwise fun a b => a.seq < b.seq) (hdk : d ≤ k)
    {f : WsFrame} (hf : f ∈ log.take d) : f.seq ≤ latestSequence (log.take k) := by
  have hfk : f ∈ log.take k := (List.take_sublist_take_left hdk).subset hf
  have hne : log.take k ≠ [] := List.ne_nil_of_mem hfk
  have hpre : (log.take k).Pairwise fun a b => a.seq < b.seq := hsorted.sublist (List.take_sublist _ _)
  unfold latestSequence
  rw [List.getLast?_eq_getLast_of_ne_nil hne, Option.map_some, Option.getD_some]
  rw [← List.dropLast_append_getLast hne, List.pairwise_append] at hpre
  rw [← List.dropLast_append_getLast hne] at hfk
  rcases List.mem_append.1 hfk with hfk | hfk
  · exact Nat.le_of_lt (hpre.2.2 f hfk _ (by simp))
  · rw [List.mem_singleton.1 hfk]

/-- The frames the history replays on a response. -/
theorem Following.bufferedInOrder (h : Following host instanceId turnRecordId w) {r : Request} (hr : w.sent = some r) :
    w.history.bufferedInOrder = ((w.log.take w.delivered).drop r.delivered).filter (·.concerns instanceId turnRecordId) := by
  unfold ReasoningHistory.bufferedInOrder
  rw [h.buffered, hr, Option.elim_some, List.map_map]
  have hid : (Prod.snd ∘ fun f : WsFrame => (f.seq, f)) = id := rfl
  rw [hid, List.map_id]
  apply List.mergeSort_of_pairwise
  have hsub : (((w.log.take w.delivered).drop r.delivered).filter (·.concerns instanceId turnRecordId)).Sublist w.log :=
    List.filter_sublist.trans ((List.drop_sublist _ _).trans (List.take_sublist _ _))
  exact (h.sorted.sublist hsub).imp fun hlt => by simpa using Nat.le_of_lt hlt

theorem Following.respond (h : Following host instanceId turnRecordId w) {r : Request} {response : Response} {k : Nat}
    {history : ReasoningHistory} (hsent : w.sent = some r) (hpoint : r.logged ≤ k)
    (hthrough : response.throughEventSequence = latestSequence (w.log.take k))
    (haccept : w.history.accept host response = .ok history) :
    Following host instanceId turnRecordId { w with sent := none, history := history, base := .of w.history response } := by
  obtain ⟨hlogged, hdelivered⟩ := h.request r hsent
  have hbuffered := h.bufferedInOrder hsent
  have hconcerns : ∀ f ∈ w.history.bufferedInOrder, f ∈ w.log.take w.delivered ∧ f.concerns instanceId turnRecordId = true := by
    intro f hf
    rw [hbuffered, List.mem_filter] at hf
    exact ⟨List.mem_of_mem_drop hf.1, hf.2⟩
  have hordered : w.history.bufferedInOrder.Pairwise fun a b => a.seq < b.seq := by
    rw [hbuffered]
    exact h.sorted.sublist (List.filter_sublist.trans ((List.drop_sublist _ _).trans (List.take_sublist _ _)))
  -- what was delivered before the request is not later than the response
  have hlater : World.later { w with sent := none, history := history, base := .of w.history response } instanceId turnRecordId =
      w.history.bufferedInOrder.filter fun f => decide (response.throughEventSequence < f.seq) := by
    rw [hbuffered, List.filter_filter]
    show (w.log.take w.delivered).filter
      (fun f => f.concerns instanceId turnRecordId && decide (response.throughEventSequence < f.seq)) = _
    conv_lhs => rw [← List.take_append_drop r.delivered (w.log.take w.delivered), List.filter_append]
    have hearly : ((w.log.take w.delivered).take r.delivered).filter
        (fun f => f.concerns instanceId turnRecordId && decide (response.throughEventSequence < f.seq)) = [] := by
      rw [List.filter_eq_nil_iff]
      intro f hf hboth
      rw [List.take_take] at hf
      have hle := seq_le_latest h.sorted (Nat.le_trans (Nat.min_le_left _ _) (Nat.le_trans hlogged hpoint)) hf
      rw [← hthrough] at hle
      simp only [Bool.and_eq_true, decide_eq_true_eq] at hboth
      omega
    rw [hearly, List.nil_append]
    exact List.filter_congr fun f _ => Bool.and_comm _ _
  unfold ReasoningHistory.accept at haccept
  split at haccept
  · cases haccept
  · have hhistory := (Except.ok.inj haccept).symm
    cases hc : response.committed with
    | true =>
      rw [foldl_committed (w.history.rebase response) hc] at hhistory
      subst hhistory
      refine ⟨h.numbered, h.sorted, h.delivered, h.owner, h.turn, rfl, rfl, ?_, Nat.le_refl _, .inl rfl, ?_, rfl⟩
      · unfold World.expected
        exact (if_pos (show (Base.of w.history response).committed = true from hc)).symm
      · intro r hr
        cases hr
    | false =>
      obtain ⟨hview, howner, hturn, hpending, hcommitted, hle, hat⟩ := takesIn_foldl host
        (fun f hf => (concerns_some (hconcerns f hf).2).2) hordered (w.history.rebase response) hc
      subst hhistory
      refine ⟨h.numbered, h.sorted, h.delivered, howner.trans h.owner, hturn.trans h.turn, hpending, hcommitted.trans hc.symm, ?_,
        hle, ?_, ?_, rfl⟩
      · unfold World.expected
        rw [hlater]
        have howned : (w.history.rebase response).instanceId = instanceId := h.owner
        rw [howned] at hview
        have hlive : ¬ (Base.of w.history response).committed = true := by simp [Base.of, hc]
        exact hview.trans (if_neg hlive).symm
      · exact hat.imp_right fun ⟨f, hf, hfs⟩ => ⟨f, (hconcerns f hf).1, hfs⟩
      · intro r hr
        cases hr

theorem following_step (h : Following host instanceId turnRecordId w) {w' : World} (hs : Step host w w') :
    Following host instanceId turnRecordId w' := by
  cases hs with
  | append hsome hlater => exact h.append hsome hlater
  | deliver hnext => exact h.deliver hnext
  | @foreign frame hforeign =>
    have hother : frame.concerns w.history.instanceId w.history.turnRecordId = false := by
      rw [Bool.eq_false_iff]
      intro hc
      obtain ⟨howner, hsome⟩ := concerns_some hc
      rcases hforeign with hne | hnone
      · exact hne howner
      · rw [hnone] at hsome
        cases hsome
    rw [push_other hother]
    exact h
  | request hnone =>
    refine ⟨h.numbered, h.sorted, h.delivered, h.owner, h.turn, rfl, h.committed, h.view, h.boundary_le, h.boundary, ?_, ?_⟩
    · intro r hr
      cases hr
      exact ⟨h.delivered, Nat.le_refl _⟩
    · have hempty : w.history.buffered = [] := by
        rw [h.buffered, hnone]
        rfl
      simp only [Option.elim_some]
      rw [List.drop_of_length_le (List.length_take_le _ _)]
      exact hempty
  | respond hsent hpoint hk hthrough haccept => exact h.respond hsent hpoint hthrough haccept
  | fail hsent =>
    refine ⟨h.numbered, h.sorted, h.delivered, h.owner, h.turn, rfl, h.committed, h.view, h.boundary_le, h.boundary, ?_, rfl⟩
    intro r hr
    cases hr

theorem following_reachable {w : World} (h : Reachable host instanceId turnRecordId w) : Following host instanceId turnRecordId w := by
  induction h with
  | initial =>
    refine ⟨by simp [World.initial], List.Pairwise.nil, Nat.le_refl _, rfl, rfl, rfl, rfl, rfl, Nat.le_refl _, .inl rfl, ?_, rfl⟩
    intro r hr
    cases hr
  | step _ hs ih => exact following_step ih hs

end Preservation

end Leitwerk.Ui
