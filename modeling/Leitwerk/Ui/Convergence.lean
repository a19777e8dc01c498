import Leitwerk.Ui.HistoryRuns
import Leitwerk.Ui.PrimaryPathReplay
/-!
# Client views converge to the log

The expanded history of a turn shows the last accepted response and the later
frames, and the primary path is the same whether the earlier summaries were
dropped from the buffer or not.
-/

namespace Leitwerk.Ui

open Protocol Protocol.LiveTurn
open JsString (lit)

theorem client_views_converge (host : Host) (compareTimestampStrings : String → String → Int) :
    (∀ (instanceId : String) (turnRecordId : JsString) (w : World), Reachable host instanceId turnRecordId w →
      w.history.toView = w.expected host instanceId turnRecordId) ∧
    (∀ (earlier loading handed received : List PrimaryPathFrame) (snapshot : PrimaryPathSnapshot),
      InOrder (earlier ++ loading) → (∀ f ∈ earlier, f.seq ≤ snapshot.throughEventSequence) →
      handed.Perm (loading.foldl bufferPrimaryPathFrame []) → received.Perm (earlier ++ loading) →
      replayPrimaryPathFramesAfterSnapshot compareTimestampStrings snapshot handed =
        replayPrimaryPathFramesAfterSnapshot compareTimestampStrings snapshot received) :=
  ⟨fun _ _ _ hw => (following_reachable hw).view,
    fun _ _ _ _ _ hord hearly hhanded hreceived => replay_buffered compareTimestampStrings hord hearly hhanded hreceived⟩

/-- A delta of the turn `t` of the process `p`. -/
def delta (n : Nat) : WsFrame where
  type := "pi.stream.delta"
  instanceId := "p"
  payload := [("turnRecordId", .str (lit "t")), ("text", .str (lit "x"))]
  eventSequence := some n
  sentAt := lit "2026-01-01"

/-- A response that reflects the log through its first frame. -/
def firstResponse : Response where
  instanceId := "p"
  turnRecordId := lit "t"
  committed := false
  throughEventSequence := 1
  reasoning := ⟨⟨lit "x", [], none⟩, [], [], none, .null⟩
  events := some []

/-- A summary of the turn `t` with the number `n`. -/
def summaryFrame (n : Nat) : PrimaryPathFrame where
  payload := .summaryUpdated "t" { emptyCompactTurnSummary with throughEventSequence := n }
  eventSequence := some n
  sentAt := "2026-01-01"

/-- The turn `t` is active and nothing is summarized. -/
def activeSnapshot : PrimaryPathSnapshot where
  rebuiltAt := "2026-01-01"
  throughEventSequence := 0
  primaryPathEntries := []
  currentLeaf := none
  rootEntry := none
  currentPrimaryPathLeaf := none
  labels := []
  turnAnnotations := []
  turnState := ⟨some "t", true, some (.started ⟨"t", "work", "llm", "primary", "2026-01-01"⟩)⟩

/-- A frame, a request, another frame, both delivered, and a response that reflects the first. -/
theorem reachable_demo : ∃ w, Reachable plainHost "p" (lit "t") w ∧ w.delivered = 2 ∧ w.base.boundary = 1 := by
  have h₀ : Reachable plainHost "p" (lit "t") (.initial "p" (lit "t")) := .initial
  have h₁ := h₀.step (@Step.append plainHost _ (delta 1) rfl (by simp [World.initial]))
  have h₂ := h₁.step (@Step.request plainHost _ rfl)
  have h₃ := h₂.step (@Step.append plainHost _ (delta 2) rfl (by simp [World.initial, delta, WsFrame.seq]))
  have h₄ := h₃.step (@Step.deliver plainHost _ (delta 1) rfl)
  have h₅ := h₄.step (@Step.deliver plainHost _ (delta 2) rfl)
  have h₆ := h₅.step (@Step.respond plainHost _ ⟨1, 0⟩ firstResponse 1 _ rfl (Nat.le_refl 1) (by decide) rfl
    (if_neg fun h => h.elim (fun hne => hne (following_reachable h₅).owner.symm) fun hne => hne (following_reachable h₅).turn.symm))
  exact ⟨_, h₆, rfl, rfl⟩

theorem client_views_converge_demo :
    (∃ w : World, w.delivered = 2 ∧ w.base.boundary = 1 ∧ w.history.toView = w.expected plainHost "p" (lit "t")) ∧
    replayPrimaryPathFramesAfterSnapshot (fun _ _ => 0) activeSnapshot [summaryFrame 2] =
      replayPrimaryPathFramesAfterSnapshot (fun _ _ => 0) activeSnapshot [summaryFrame 2, summaryFrame 1] := by
  obtain ⟨w, hw, hdelivered, hboundary⟩ := reachable_demo
  refine ⟨⟨w, hdelivered, hboundary, (client_views_converge plainHost fun _ _ => 0).1 "p" (lit "t") w hw⟩, ?_⟩
  have hord : InOrder ([] ++ [summaryFrame 1, summaryFrame 2]) := by
    refine ⟨by simp [summaryFrame], by simp [summaryFrame, PrimaryPathFrame.seq], ?_⟩
    refine List.pairwise_cons.2 ⟨?_, List.pairwise_singleton _ _⟩
    intro f hf id s s' hs hs'
    rw [List.mem_singleton.1 hf] at hs'
    cases hs
    cases hs'
    exact Nat.lt_succ_self 1
  exact (client_views_converge plainHost fun _ _ => 0).2 [] [summaryFrame 1, summaryFrame 2] _ _ _ hord (by simp)
    (List.Perm.refl _) (List.Perm.swap _ _ _)

end Leitwerk.Ui
