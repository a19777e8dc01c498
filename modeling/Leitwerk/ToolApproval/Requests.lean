import Leitwerk.Engine.Commit
import Leitwerk.Lib.JsonStringify
/-!
# Tool approval requests

`packages/server/src/db/process-tool-approval-request-repo.ts` and the part of
`commitWrites` that cancels the requests of a settled turn. A request is asked for
once for each tool call; only an open one is decided or cancelled (`Later`).
A JSON column is the value it is read back as, which is the value that was
written (`JsonObject.parse_text`).
-/

namespace Leitwerk.ToolApproval

open JsonSyntax Engine

variable {ν : Type}

/-! ## JSON objects -/

/-- An object that was parsed. -/
structure JsonObject (ν : Type) where
  fields : List (JsString × JsonTree ν)
  keyed : Keyed (.obj fields)
  inOrder : JsonSyntax.inOrder (.obj fields) = .obj fields

/-- `JSON.stringify`. -/
def JsonObject.text (numbers : Numbers ν) (o : JsonObject ν) : JsString := stringify numbers (.obj o.fields)

theorem JsonObject.parse_text (numbers : Numbers ν) (o : JsonObject ν) : jsonParse numbers (o.text numbers) = some (.obj o.fields) :=
  jsonParse_stringify numbers o.keyed o.inOrder

theorem JsonObject.text_inj (numbers : Numbers ν) {o o' : JsonObject ν} (h : o.text numbers = o'.text numbers) : o = o' := by
  have hparse := congrArg (jsonParse numbers) h
  rw [o.parse_text, o'.parse_text] at hparse
  cases o
  cases o'
  simp at hparse
  subst hparse
  rfl

/-- `const { [key]: _, ...rest } = o`. -/
def JsonObject.without (key : JsString) (o : JsonObject ν) : JsonObject ν where
  fields := o.fields.filter (·.1 ≠ key)
  keyed := by
    cases o.keyed with
    | obj hnodup hfields =>
      apply Keyed.obj
      · exact hnodup.sublist (List.filter_sublist.map Prod.fst)
      · intro f hf
        exact hfields f (List.mem_filter.1 hf).1
  inOrder := by
    obtain ⟨hkeys, hvalues⟩ := inOrder_obj_iff.1 o.inOrder
    apply inOrder_obj_iff.2
    constructor
    · apply OwnKeys.ordered_of_pairwise
      have := OwnKeys.pairwise_ordered Prod.fst o.fields
      rw [hkeys] at this
      exact this.sublist List.filter_sublist
    · intro f hf
      exact hvalues f (List.mem_filter.1 hf).1

/-! ## Rows -/

/-- `ToolApprovalStatus`. -/
inductive Status where
  | opened | accepted | feedback | declined | cancelled
  deriving DecidableEq

/-- What is asked for: the input of `review`. -/
structure ReviewInput (ν : Type) where
  instanceId : String
  turnRecordId : String
  toolCallId : String
  toolName : String
  arguments : JsonObject ν
  destination : Option (JsonObject ν)

/-- `ProcessToolApprovalRequest`, less its id. An actor is its JSON. -/
structure Request (ν : Type) extends ReviewInput ν where
  requestedAt : String
  status : Status := .opened
  resolvedAt : Option String := none
  resolvedBy : Option Json := none
  feedback : Option String := none

abbrev Requests (ν : Type) := Table String (Request ν)

/-- What a request and a call have in common that a request answers. -/
def ReviewInput.correlates (a b : ReviewInput ν) : Bool :=
  a.instanceId = b.instanceId && a.turnRecordId = b.turnRecordId && a.toolCallId = b.toolCallId

/-- Whether a replay asks for something else. -/
def ReviewInput.differs (numbers : Numbers ν) (a b : ReviewInput ν) : Bool :=
  a.toolName ≠ b.toolName || a.arguments.text numbers ≠ b.arguments.text numbers ||
    a.destination.map (·.text numbers) ≠ b.destination.map (·.text numbers)

/-- `createIdempotent`, with the id of the request it leads to. -/
def createIdempotent (numbers : Numbers ν) (rows : Requests ν) (id now : String) (input : ReviewInput ν) :
    Except String (Requests ν × String × Request ν) :=
  match rows.rows.find? fun row => row.2.correlates input with
  | some (existing, request) =>
    if request.differs numbers input then .error "Tool approval correlation was replayed with different arguments"
    else .ok (rows, existing, request)
  | none =>
    let request : Request ν := { input with requestedAt := now }
    match rows.create id request with
    | some rows => .ok (rows, id, request)
    | none => .error "UNIQUE constraint failed: process_tool_approval_requests.id"

/-- `ToolApprovalDecision`. -/
inductive Decision where
  | accepted
  | feedback (text : String)
  | declined
  deriving DecidableEq

def Decision.status : Decision → Status
  | .accepted => .accepted
  | .feedback _ => .feedback
  | .declined => .declined

def Decision.text : Decision → Option String
  | .feedback text => some text
  | _ => none

/-- The row `resolve` leaves. -/
def Request.resolved (r : Request ν) (decision : Decision) (actor : Json) (now : String) : Request ν :=
  { r with status := decision.status, resolvedAt := some now, resolvedBy := some actor, feedback := decision.text.map trim }

/-- `resolve`, of a row that is open. -/
def resolveRow (rows : Requests ν) (id : String) (decision : Decision) (actor : Json) (now : String) :
    Except String (Requests ν) :=
  if decision.text.any fun text => trim text = "" then .error "Feedback is required"
  else .ok (rows.modify id fun r => if r.status = .opened then r.resolved decision actor now else r)

/-- A request that is cancelled with its turn. -/
def Request.openIn (instanceId turnRecordId : String) (r : Request ν) : Bool :=
  r.instanceId = instanceId && r.turnRecordId = turnRecordId && r.status = .opened

/-- The rows `cancelOpenByTurn` leaves. -/
def cancelOpenByTurn (rows : Requests ν) (instanceId turnRecordId now : String) : Requests ν :=
  rows.map fun r => if r.openIn instanceId turnRecordId then { r with status := .cancelled, resolvedAt := some now } else r

/-- The key of the row a write is about. -/
def recordId : TurnRecordWrite → String
  | .create r => r.id
  | .update id _ => id

/-- What the turn-record writes of a commit do to the requests: each record that does not run
after its write loses its open ones. -/
def settleRequests (instanceId now : String) : Table String TurnRecord → List TurnRecordWrite → Requests ν → Requests ν
  | _, [], rows => rows
  | records, w :: ws, rows =>
    match applyTurnRecordWrite records w with
    | none => rows
    | some records =>
      let settled := (records.get? (recordId w)).any fun r => r.status ≠ .running
      settleRequests instanceId now records ws (if settled then cancelOpenByTurn rows instanceId (recordId w) now else rows)

/-- `resolvedDecision`. -/
def Request.decision (r : Request ν) : Option Decision :=
  match r.status with
  | .opened => none
  | .accepted => some .accepted
  | .feedback => some (.feedback (r.feedback.getD ""))
  | .declined | .cancelled => some .declined

/-! ## Rows over time -/

/-- What becomes of a request: it asks for the same, and once decided it stays as it is. -/
def Request.Becomes (r r' : Request ν) : Prop :=
  r'.toReviewInput = r.toReviewInput ∧ (r.status ≠ .opened → r' = r)

/-- The rows at a later moment. -/
structure Later (rows rows' : Requests ν) : Prop where
  becomes : ∀ id r, rows.get? id = some r → ∃ r', rows'.get? id = some r' ∧ r.Becomes r'

variable {rows rows' rows'' : Requests ν} {r r' r'' : Request ν}

theorem Request.Becomes.refl (r : Request ν) : r.Becomes r := ⟨rfl, fun _ => rfl⟩

theorem Request.Becomes.trans (h : r.Becomes r') (h' : r'.Becomes r'') : r.Becomes r'' := by
  refine ⟨h'.1.trans h.1, fun hs => ?_⟩
  obtain rfl := h.2 hs
  exact h'.2 hs

theorem Later.refl (rows : Requests ν) : Later rows rows := ⟨fun _ r hr => ⟨r, hr, .refl r⟩⟩

theorem Later.trans (h : Later rows rows') (h' : Later rows' rows'') : Later rows rows'' := by
  constructor
  intro id r hr
  obtain ⟨r', hr', hb⟩ := h.becomes id r hr
  obtain ⟨r'', hr'', hb'⟩ := h'.becomes id r' hr'
  exact ⟨r'', hr'', hb.trans hb'⟩

theorem becomes_cancelled (r : Request ν) (instanceId turnRecordId now : String) :
    r.Becomes (if r.openIn instanceId turnRecordId then { r with status := .cancelled, resolvedAt := some now } else r) := by
  split
  · rename_i h
    refine ⟨rfl, fun hs => ?_⟩
    simp [Request.openIn, hs] at h
  · exact .refl r

theorem later_cancel (rows : Requests ν) (instanceId turnRecordId now : String) :
    Later rows (cancelOpenByTurn rows instanceId turnRecordId now) := by
  constructor
  intro id r hr
  refine ⟨_, ?_, becomes_cancelled r instanceId turnRecordId now⟩
  rw [cancelOpenByTurn, Table.get?_map, hr, Option.map_some]

theorem later_settle (instanceId now : String) (ws : List TurnRecordWrite) (records : Table String TurnRecord)
    (rows : Requests ν) : Later rows (settleRequests instanceId now records ws rows) := by
  induction ws generalizing records rows with
  | nil => exact .refl rows
  | cons w ws ih =>
    unfold settleRequests
    split
    · exact .refl rows
    · dsimp only
      split
      · exact (later_cancel rows ..).trans (ih ..)
      · exact ih ..

/-- A row after `cancelOpenByTurn` is the one before it, or is cancelled. -/
theorem cancel_row {id instanceId turnRecordId now : String} (h : (cancelOpenByTurn rows instanceId turnRecordId now).get? id = some r) :
    ∃ r₀, rows.get? id = some r₀ ∧ r₀.toReviewInput = r.toReviewInput ∧
      (r = r₀ ∨ r.status = .cancelled ∧ r.instanceId = instanceId) := by
  obtain ⟨r₀, hr₀, rfl⟩ := Option.map_eq_some_iff.1 ((Table.get?_map ..).symm.trans h)
  refine ⟨r₀, hr₀, ?_⟩
  split
  · rename_i hopen
    simp only [Request.openIn, Bool.and_eq_true, decide_eq_true_eq] at hopen
    exact ⟨rfl, .inr ⟨rfl, hopen.1.1⟩⟩
  · exact ⟨rfl, .inl rfl⟩

theorem settle_row {id instanceId now : String} (ws : List TurnRecordWrite) {records : Table String TurnRecord}
    (h : (settleRequests instanceId now records ws rows).get? id = some r) :
    ∃ r₀, rows.get? id = some r₀ ∧ r₀.toReviewInput = r.toReviewInput ∧
      (r = r₀ ∨ r.status = .cancelled ∧ r.instanceId = instanceId) := by
  induction ws generalizing records rows with
  | nil => exact ⟨r, h, rfl, .inl rfl⟩
  | cons w ws ih =>
    unfold settleRequests at h
    split at h
    · exact ⟨r, h, rfl, .inl rfl⟩
    · dsimp only at h
      obtain ⟨r₁, hr₁, hsame, hb⟩ := ih h
      split at hr₁
      · obtain ⟨r₀, hr₀, hsame₀, hb₀⟩ := cancel_row hr₁
        refine ⟨r₀, hr₀, hsame₀.trans hsame, ?_⟩
        rcases hb with rfl | hb
        · exact hb₀
        · exact .inr hb
      · exact ⟨r₁, hr₁, hsame, hb⟩

/-- Whether a turn record runs. -/
def runs (records : Table String TurnRecord) (turnRecordId : String) : Bool :=
  (records.get? turnRecordId).any fun turn => turn.status = .running

/-- A write changes the record it is about. -/
theorem record_write {records records' : Table String TurnRecord} {w : TurnRecordWrite}
    (h : applyTurnRecordWrite records w = some records') {k : String} (hk : k ≠ recordId w) : records'.get? k = records.get? k := by
  cases w with
  | create turn =>
    rw [(Table.create_eq_some h).2]
    exact if_neg hk
  | update id input =>
    cases h
    exact Table.get?_modify_ne _ _ hk

/-- Where the open requests of an instance are of running turns, they are so after a commit. -/
theorem settle_running {instanceId now : String} {ws : List TurnRecordWrite} {records records' : Table String TurnRecord}
    (hws : applyAll applyTurnRecordWrite records ws = some records')
    (hopen : ∀ id r, rows.get? id = some r → r.instanceId = instanceId → r.status = .opened → runs records r.turnRecordId = true)
    {id : String} (hr : (settleRequests instanceId now records ws rows).get? id = some r) (hi : r.instanceId = instanceId)
    (hs : r.status = .opened) : runs records' r.turnRecordId = true := by
  induction ws generalizing records rows with
  | nil =>
    cases hws
    exact hopen id r hr hi hs
  | cons w ws ih =>
    obtain ⟨records₁, hw, hws⟩ := Option.bind_eq_some_iff.1 hws
    unfold settleRequests at hr
    rw [hw] at hr
    refine ih hws (fun id' r' hr' hi' hs' => ?_) hr
    have hkeep : rows.get? id' = some r' → r'.turnRecordId ≠ recordId w → runs records₁ r'.turnRecordId = true := by
      intro hrow hne
      unfold runs
      rw [record_write hw hne]
      exact hopen id' r' hrow hi' hs'
    split at hr'
    · obtain ⟨r₀, hr₀, -, rfl | hb⟩ := cancel_row hr'
      · apply hkeep hr₀
        intro heq
        rw [cancelOpenByTurn, Table.get?_map, hr₀, Option.map_some, if_pos (by simp [Request.openIn, hi', hs', heq]),
          Option.some.injEq] at hr'
        rw [← hr'] at hs'
        cases hs'
      · rw [hb.1] at hs'
        cases hs'
    · rename_i hrunning
      by_cases hne : r'.turnRecordId = recordId w
      · have hwas := hopen id' r' hr' hi' hs'
        unfold runs at hwas ⊢
        rw [hne] at hwas ⊢
        cases hrow : records₁.get? (recordId w) with
        | none =>
          exfalso
          cases w with
          | create turn => simp [(Table.create_eq_some hw).2, recordId] at hrow
          | update id input =>
            cases hw
            simp only [recordId, Table.get?_modify_self, Option.map_eq_none_iff] at hrow hwas
            simp [hrow] at hwas
        | some turn => simpa [hrow] using hrunning
      · exact hkeep hr' hne

theorem resolveRow_ok {id : String} {decision : Decision} {actor : Json} {now : String}
    (h : resolveRow rows id decision actor now = .ok rows') :
    rows' = rows.modify id fun r => if r.status = .opened then r.resolved decision actor now else r := by
  unfold resolveRow at h
  split at h
  · cases h
  · cases h
    rfl

theorem later_modify (rows : Requests ν) (id : String) (decision : Decision) (actor : Json) (now : String) :
    Later rows (rows.modify id fun r => if r.status = .opened then r.resolved decision actor now else r) := by
  constructor
  intro j r hr
  rw [Table.get?_modify]
  split
  · refine ⟨_, by rw [hr, Option.map_some], ?_⟩
    split
    · rename_i hs
      exact ⟨rfl, fun hne => absurd hs hne⟩
    · exact .refl r
  · exact ⟨r, hr, .refl r⟩

/-- The outcomes of `createIdempotent`. -/
inductive Created (rows : Requests ν) (id now : String) (input : ReviewInput ν) : Requests ν → String → Request ν → Prop
  | replay {id' : String} {r : Request ν} : rows.get? id' = some r → r.toReviewInput = input → Created rows id now input rows id' r
  | create {rows' : Requests ν} : (∀ j r, rows.get? j = some r → r.correlates input = false) → rows.get? id = none →
      (∀ j, rows'.get? j = if j = id then some { input with requestedAt := now } else rows.get? j) →
      Created rows id now input rows' id { input with requestedAt := now }

theorem same_of_replay {numbers : Numbers ν} {a b : ReviewInput ν} (hc : a.correlates b = true) (hd : a.differs numbers b = false) :
    a = b := by
  have hdest : a.destination = b.destination := by
    have h : a.destination.map (·.text numbers) = b.destination.map (·.text numbers) := by
      simp only [ReviewInput.differs, Bool.or_eq_false_iff, decide_eq_false_iff_not, not_not] at hd
      exact hd.2
    apply Option.map_injective (fun _ _ => JsonObject.text_inj numbers) h
  have hargs : a.arguments = b.arguments := by
    apply JsonObject.text_inj numbers
    simp only [ReviewInput.differs, Bool.or_eq_false_iff, decide_eq_false_iff_not, not_not] at hd
    exact hd.1.2
  simp only [ReviewInput.differs, Bool.or_eq_false_iff, decide_eq_false_iff_not, not_not] at hd
  simp only [ReviewInput.correlates, Bool.and_eq_true, decide_eq_true_eq] at hc
  cases a
  cases b
  simp_all

theorem createIdempotent_ok {numbers : Numbers ν} {id now id' : String} {input : ReviewInput ν}
    (h : createIdempotent numbers rows id now input = .ok (rows', id', r)) : Created rows id now input rows' id' r := by
  unfold createIdempotent at h
  split at h
  · rename_i existing request hfind
    split at h
    · cases h
    · rename_i hd
      cases h
      have hc := List.find?_some hfind
      exact .replay (Table.lookup_of_mem rows.nodup (List.mem_of_find?_eq_some hfind)) (same_of_replay hc (by simpa using hd))
  · rename_i hfind
    dsimp only at h
    split at h
    · rename_i rows₁ hcreate
      cases h
      obtain ⟨hnone, hget⟩ := Table.create_eq_some hcreate
      refine .create (fun j r hr => ?_) hnone hget
      simpa using List.find?_eq_none.1 hfind (j, r) (Table.mem_of_lookup hr)
    · cases h

theorem Created.later {id now id' : String} {input : ReviewInput ν} (h : Created rows id now input rows' id' r) : Later rows rows' := by
  cases h with
  | replay => exact .refl rows
  | create _ hnone hget =>
    constructor
    intro j r hr
    refine ⟨r, ?_, .refl r⟩
    rw [hget, if_neg]
    · exact hr
    · rintro rfl
      rw [hnone] at hr
      cases hr

/-- The request asked for is there, and asks for what the call does. -/
theorem Created.get {id now id' : String} {input : ReviewInput ν} (h : Created rows id now input rows' id' r) :
    rows'.get? id' = some r ∧ r.toReviewInput = input := by
  cases h with
  | replay hr hsame => exact ⟨hr, hsame⟩
  | create _ _ hget => exact ⟨by rw [hget, if_pos rfl], rfl⟩

end Leitwerk.ToolApproval
