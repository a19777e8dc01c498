import Leitwerk.Worker.Reducer
/-!
# `advance` terminates and never throws

The recursion of `advance` consumes inputs, so a queue of `n` inputs bounds its
depth. `advance_eq` is the equation the source writes.
-/

namespace Leitwerk.Worker

/-! ## The queue shrinks -/

theorem finishReadying_queue (s : State) : (finishReadying s).state.inputQueue = s.inputQueue := by
  unfold finishReadying
  split
  · split
    · rfl
    · split
      · unfold beginActivation
        split <;> rfl
      · rfl
  · rfl

/-- The head of the queue is among the inputs a decision ignores. -/
theorem consumeIgnored_shrinks {s : State} {tainted pi start : Bool} {inputs : List InputItem}
    (h : decideWorkerInputEffect s.inputQueue tainted pi start = .consumeIgnored inputs) :
    (consumeIgnored s inputs).state.inputQueue.length < s.inputQueue.length := by
  unfold decideWorkerInputEffect at h
  split at h
  · split at h <;> cases h
  · rename_i head rest hq
    split at h
    · cases h
    · split at h
      · split at h <;> cases h
      · rename_i ht
        simp only at h
        split at h
        · cases h
        · cases h
          have hin : head.inputId ∈ ((head :: rest).takeWhile (!·.targeted)).map (·.inputId) := by
            simp [ht]
          have hle := List.length_filter_le (fun item : InputItem =>
            !(((head :: rest).takeWhile (!·.targeted)).map (·.inputId)).contains item.inputId) rest
          simp only [consumeIgnored, hq]
          rw [List.filter_cons_of_neg (by simpa using hin)]
          simp only [List.length_cons]
          omega

/-! ## Enough fuel -/

/-- Two recursions that agree on shorter queues advance a state alike. -/
theorem advanceReady_congr {f g : State → Reduce} {s : State}
    (h : ∀ t : State, t.inputQueue.length < s.inputQueue.length → f t = g t) :
    advanceReady f s = advanceReady g s := by
  have hin : ∀ b, advanceInputs f s b = advanceInputs g s b := by
    intro b
    unfold advanceInputs
    split
    · rfl
    · rfl
    · rename_i hd
      simp only [h _ (consumeIgnored_shrinks hd)]
    · rfl
    · rfl
  unfold advanceReady
  split
  · rfl
  · simp only [hin]
  · simp only [hin]
  · rfl

theorem advanceWithin_enough {n m : Nat} :
    ∀ {s : State}, s.inputQueue.length < n → s.inputQueue.length < m → advanceWithin n s = advanceWithin m s := by
  induction n generalizing m with
  | zero => intro s h; omega
  | succ n ih =>
    intro s hn hm
    obtain _ | m := m
    · omega
    · simp only [advanceWithin]
      rw [advanceReady_congr (g := advanceWithin m)]
      intro t ht
      rw [finishReadying_queue] at ht
      exact ih (by omega) (by omega)

/-- `advance`, as the source writes it: `finishReadying`, and then one decision
that may advance again. -/
theorem advance_eq (s : State) :
    advance s = (do
      let ready := finishReadying s
      let rest ← advanceReady advance ready.state
      return ⟨rest.state, ready.outputs ++ rest.outputs⟩) := by
  rw [show advance s = advanceWithin (s.inputQueue.length + 1) s from rfl]
  simp only [advanceWithin]
  rw [advanceReady_congr (g := advance)]
  intro t ht
  rw [finishReadying_queue] at ht
  exact advanceWithin_enough ht (by omega)

end Leitwerk.Worker
