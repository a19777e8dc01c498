import Leitwerk.EntryRefs.Patch
/-!
# Which references survive an operation

References are read back as they were written (`parseRefsStrict_refsJson`), so
`merge_cases` says what a merge does to the references of its field.
`refs_carried_iff` says exactly when the state an operation commits has the
references it should.
-/

namespace Leitwerk.EntryRefs

open JsString (lit)

/-! ## References are read back as they were written -/

theorem trimToNull_label (label : Label) : trimToNull label.1 = some label := by
  obtain ⟨s, hne, htrim⟩ := label
  unfold trimToNull
  dsimp only
  rw [dif_neg (by rw [htrim]; exact hne)]
  exact congrArg some (Subtype.ext htrim)

theorem parse_refJson (ref : Option SemanticEntryRef) : parseSemanticEntryRef (some (refJson ref)) = ref := by
  cases ref with
  | none => rfl
  | some ref =>
    obtain ⟨entryId, turnRecordId⟩ := ref
    have hentry : getField [(lit "entryId", JsonValue.str entryId.1),
        (lit "turnRecordId", (turnRecordId.map fun id => JsonValue.str id.1).getD .null)] (lit "entryId") = some (.str entryId.1) := by
      rfl
    have hturn : getField [(lit "entryId", JsonValue.str entryId.1),
        (lit "turnRecordId", (turnRecordId.map fun id => JsonValue.str id.1).getD .null)] (lit "turnRecordId") =
        some ((turnRecordId.map fun id => JsonValue.str id.1).getD .null) := by
      rfl
    unfold refJson parseSemanticEntryRef
    dsimp only
    rw [hentry, hturn]
    dsimp only [trimFieldToNull]
    rw [trimToNull_label]
    cases turnRecordId with
    | none => rfl
    | some id =>
      simp only [Option.map_some, Option.getD_some]
      rw [trimToNull_label]

theorem areSemanticEntryRefsEqual_iff (left right : Option SemanticEntryRef) :
    areSemanticEntryRefsEqual left right = true ↔ left = right := by
  unfold areSemanticEntryRefsEqual
  rcases left with _ | ⟨entryId, turnRecordId⟩ <;> rcases right with _ | ⟨entryId', turnRecordId'⟩ <;> simp

/-- The names a reference of a field may have. -/
def RefField.Names (field : RefField) (key : JsString) : Prop :=
  match field with
  | .productRefs => True
  | .semanticEntryRefs => key ∈ SemanticEntryRefKey.all.map SemanticEntryRefKey.name

/-- References as they are read from a field. -/
def WellFormed (field : RefField) (refs : Refs) : Prop :=
  ∀ key ref, refs.get? key = some ref →
    match field with
    | .productRefs => isValidProcessProductName key = true ∧ ref ≠ none
    | .semanticEntryRefs => field.Names key

theorem putKeys_get (f : JsString → Option SemanticEntryRef) (keys : List SemanticEntryRefKey) (refs : Refs) (key : JsString) :
    (keys.foldl (fun refs k => refs.put k.name (f k.name)) refs).get? key =
      if key ∈ keys.map SemanticEntryRefKey.name then some (f key) else refs.get? key := by
  induction keys generalizing refs with
  | nil => simp
  | cons k keys ih =>
    rw [List.foldl_cons, ih, Table.get?_put]
    by_cases hkey : key = k.name
    · subst hkey
      simp
    · simp [hkey]

theorem parseProcessSemanticEntryRefs_get (fields : List (JsString × JsonValue)) (key : JsString) :
    (parseProcessSemanticEntryRefs fields).get? key =
      if key ∈ SemanticEntryRefKey.all.map SemanticEntryRefKey.name then some (parseSemanticEntryRef (getField fields key)) else none :=
  putKeys_get (fun key => parseSemanticEntryRef (getField fields key)) SemanticEntryRefKey.all Table.empty key

/-- Reading product references adds each entry under its name. -/
theorem addProductRefs_effect (l : List (JsString × Option SemanticEntryRef)) (refs : Refs) (hnodup : (l.map Prod.fst).Nodup)
    (hvalid : ∀ row ∈ l, isValidProcessProductName row.1 = true ∧ row.2 ≠ none) :
    ∃ refs', (l.map fun row => (row.1, refJson row.2)).foldlM addProductRef refs = .ok refs' ∧
      ∀ key, refs'.get? key = (getField l key).or (refs.get? key) := by
  induction l generalizing refs with
  | nil => exact ⟨refs, rfl, fun key => rfl⟩
  | cons row l ih =>
    obtain ⟨name, ref⟩ := row
    obtain ⟨hname, href⟩ := hvalid (name, ref) List.mem_cons_self
    rw [List.map_cons, List.nodup_cons] at hnodup
    obtain ⟨ref, rfl⟩ := Option.ne_none_iff_exists'.1 href
    have hadd : addProductRef refs (name, refJson (some ref)) = .ok (refs.put name (some ref)) := by
      unfold addProductRef
      dsimp only at hname ⊢
      rw [if_neg (by simp [hname]), parse_refJson]
    obtain ⟨refs', hrest, hget⟩ := ih (refs.put name (some ref)) hnodup.2 fun row hrow => hvalid row (List.mem_cons_of_mem _ hrow)
    refine ⟨refs', ?_, fun key => ?_⟩
    · rw [List.map_cons, List.foldlM_cons, hadd]
      exact hrest
    · rw [hget key, Table.get?_put, getField_cons]
      by_cases hkey : key = name
      · subst hkey
        have hnone : getField l key = none := Table.lookup_eq_none_iff.2 hnodup.1
        rw [hnone, if_pos rfl, if_pos rfl]
        rfl
      · rw [if_neg hkey, if_neg hkey]

theorem addProductRefs_wellFormed (fields : List (JsString × JsonValue)) {refs refs' : Refs} (hrefs : WellFormed .productRefs refs)
    (hrun : fields.foldlM addProductRef refs = .ok refs') : WellFormed .productRefs refs' := by
  induction fields generalizing refs with
  | nil =>
    cases hrun
    exact hrefs
  | cons entry fields ih =>
    rw [List.foldlM_cons] at hrun
    unfold addProductRef at hrun
    by_cases hname : isValidProcessProductName entry.1 = false
    · rw [if_pos hname] at hrun
      cases hrun
    · rw [if_neg hname] at hrun
      cases hparse : parseSemanticEntryRef (some entry.2) with
      | none =>
        rw [hparse] at hrun
        cases hrun
      | some ref =>
        rw [hparse] at hrun
        refine ih (fun key found hfound => ?_) hrun
        rw [Table.get?_put] at hfound
        split at hfound
        · rename_i hkey
          cases hfound
          refine ⟨?_, by simp⟩
          rw [hkey]
          simpa using hname
        · exact hrefs key found hfound

/-- What is read from a field is well formed. -/
theorem parseRefsStrict_wellFormed {field : RefField} {json : Option JsonValue} {refs : Refs}
    (h : parseRefsStrict field json = .ok refs) : WellFormed field refs := by
  have hsemantic : ∀ fields, WellFormed .semanticEntryRefs (parseProcessSemanticEntryRefs fields) := by
    intro fields key ref href
    rw [parseProcessSemanticEntryRefs_get] at href
    split at href
    · assumption
    · cases href
  have hempty : WellFormed .productRefs Table.empty := fun key ref href => by cases href
  cases field with
  | productRefs =>
    rcases json with _ | json
    · cases h
      exact hempty
    · cases json with
      | obj fields => exact addProductRefs_wellFormed fields hempty h
      | _ => cases h
  | semanticEntryRefs =>
    rcases json with _ | json
    · cases h
      exact hsemantic []
    · cases json with
      | obj fields =>
        cases h
        exact hsemantic fields
      | _ => cases h

/-- References that were written are read back. -/
theorem parseRefsStrict_refsJson {field : RefField} {refs : Refs} (h : WellFormed field refs) :
    ∃ refs', parseRefsStrict field (some (refsJson refs)) = .ok refs' ∧ ∀ key, refs'.ref key = refs.ref key := by
  cases field with
  | productRefs =>
    obtain ⟨refs', hrun, hget⟩ := addProductRefs_effect refs.rows Table.empty refs.nodup fun row hrow =>
      h row.1 row.2 (Table.lookup_of_mem refs.nodup hrow)
    refine ⟨refs', hrun, fun key => ?_⟩
    rw [Refs.ref, hget, Table.get?_empty, Option.or_none]
    rfl
  | semanticEntryRefs =>
    refine ⟨_, rfl, fun key => ?_⟩
    rw [Refs.ref, parseProcessSemanticEntryRefs_get]
    have hfield : getField (refs.rows.map fun row => (row.1, refJson row.2)) key = (refs.get? key).map refJson :=
      getField_map refs.rows refJson key
    rw [hfield, Refs.ref]
    cases hget : refs.get? key with
    | none => split <;> rfl
    | some ref =>
      have hname : key ∈ SemanticEntryRefKey.all.map SemanticEntryRefKey.name := h key ref hget
      rw [if_pos hname, Option.map_some, parse_refJson]

/-! ## What a patch does to the references -/

/-- The entries of a patch are those of an object, and name references its field may have. -/
structure Admissible (field : RefField) (patch : EntryRefPatch) : Prop where
  nodup : ((definedEntries patch).map Prod.fst).Nodup
  names : ∀ entry ∈ definedEntries patch, field.Names entry.1

theorem applyEntry_effect {field : RefField} {changed changed' : Bool} {refs refs' : Refs} {entry : JsString × PatchValue}
    (hname : field.Names entry.1) (hrefs : WellFormed field refs)
    (hrun : applyEntry field (changed, refs) entry = .ok (changed', refs')) :
    WellFormed field refs' ∧ (∀ key, refs'.ref key = if key = entry.1 then entry.2.normalize else refs.ref key) ∧
      (changed' = true ↔ changed = true ∨ refs.ref entry.1 ≠ entry.2.normalize) := by
  have hchanged : (changed || !areSemanticEntryRefsEqual (refs.ref entry.1) entry.2.normalize) = true ↔
      changed = true ∨ refs.ref entry.1 ≠ entry.2.normalize := by
    rw [Bool.or_eq_true, Bool.not_eq_true', ← Bool.not_eq_true, areSemanticEntryRefsEqual_iff]
  have hput : ∀ key, Refs.ref (refs.put entry.1 entry.2.normalize) key = if key = entry.1 then entry.2.normalize else refs.ref key := by
    intro key
    rw [Refs.ref, Table.get?_put]
    split <;> rfl
  unfold applyEntry at hrun
  cases field with
  | productRefs =>
    dsimp only at hrun
    split at hrun
    · cases hrun
    rename_i hvalid
    split at hrun
    · rename_i hnull
      cases hrun
      refine ⟨fun key ref href => ?_, fun key => ?_, hchanged⟩
      · rw [Table.get?_remove] at href
        split at href
        · cases href
        · exact hrefs key ref href
      · rw [Refs.ref, Table.get?_remove]
        split
        · rw [hnull]
          rfl
        · rfl
    · rename_i hsome
      cases hrun
      refine ⟨fun key ref href => ?_, hput, hchanged⟩
      rw [Table.get?_put] at href
      split at href
      · rename_i hkey
        cases href
        exact ⟨by rw [hkey]; simpa using hvalid, hsome⟩
      · exact hrefs key ref href
  | semanticEntryRefs =>
    cases hrun
    refine ⟨fun key ref href => ?_, hput, hchanged⟩
    rw [Table.get?_put] at href
    split at href
    · rename_i hkey
      rw [hkey]
      exact hname
    · exact hrefs key ref href

theorem applyEntries_effect {field : RefField} (entries : EntryRefPatch) {changed changed' : Bool} {refs refs' : Refs}
    (hnodup : (entries.map Prod.fst).Nodup) (hnames : ∀ entry ∈ entries, field.Names entry.1) (hrefs : WellFormed field refs)
    (hrun : entries.foldlM (applyEntry field) (changed, refs) = .ok (changed', refs')) :
    WellFormed field refs' ∧ (∀ key, refs'.ref key = ((getField entries key).map PatchValue.normalize).getD (refs.ref key)) ∧
      (changed' = true ↔ changed = true ∨ ∃ key value, getField entries key = some value ∧ refs.ref key ≠ value.normalize) := by
  induction entries generalizing changed refs with
  | nil =>
    cases hrun
    exact ⟨hrefs, fun key => rfl, by simp [getField]⟩
  | cons entry entries ih =>
    obtain ⟨name, value⟩ := entry
    rw [List.map_cons, List.nodup_cons] at hnodup
    have hnone : getField entries name = none := Table.lookup_eq_none_iff.2 hnodup.1
    rw [List.foldlM_cons] at hrun
    cases happly : applyEntry field (changed, refs) (name, value) with
    | error message =>
      rw [happly] at hrun
      cases hrun
    | ok acc =>
      obtain ⟨changed₁, refs₁⟩ := acc
      rw [happly] at hrun
      obtain ⟨hrefs₁, hget₁, hchanged₁⟩ := applyEntry_effect (hnames _ List.mem_cons_self) hrefs happly
      obtain ⟨hrefs', hget', hchanged'⟩ := ih hnodup.2 (fun entry he => hnames entry (List.mem_cons_of_mem _ he)) hrefs₁ hrun
      dsimp only at hget₁ hchanged₁
      refine ⟨hrefs', fun key => ?_, ?_⟩
      · rw [hget' key, hget₁ key, getField_cons]
        by_cases hkey : key = name
        · subst hkey
          rw [hnone, if_pos rfl, if_pos rfl]
          rfl
        · rw [if_neg hkey, if_neg hkey]
      · rw [hchanged', hchanged₁, or_assoc]
        apply or_congr_right
        constructor
        · rintro (hdiff | ⟨key, found, hfound, hdiff⟩)
          · exact ⟨name, value, by rw [getField_cons, if_pos rfl], hdiff⟩
          · have hkey : key ≠ name := by
              rintro rfl
              rw [hnone] at hfound
              cases hfound
            rw [hget₁ key, if_neg hkey] at hdiff
            exact ⟨key, found, by rw [getField_cons, if_neg hkey, hfound], hdiff⟩
        · rintro ⟨key, found, hfound, hdiff⟩
          rw [getField_cons] at hfound
          by_cases hkey : key = name
          · subst hkey
            rw [if_pos rfl, Option.some.injEq] at hfound
            rw [hfound]
            exact .inl hdiff
          · rw [if_neg hkey] at hfound
            exact .inr ⟨key, found, hfound, by rwa [hget₁ key, if_neg hkey]⟩

/-! ## Merging -/

/-- What a text has for a field. -/
def rawField (field : RefField) (text : Option JsonText) : Except JsString (Option JsonValue) :=
  (parseProcessStateJsonStrict (lit "stateJson") text).map fun fields => getField fields field.name

/-- The reference of a name in a state. -/
def readRef (field : RefField) (text : Option JsonText) (key : JsString) : Except JsString (Option SemanticEntryRef) := do
  let raw ← rawField field text
  let refs ← parseRefsStrict field raw
  return refs.ref key

/-- A reference with the patch applied to what there was. -/
def patched (patch : EntryRefPatch) (key : JsString) (before : Except JsString (Option SemanticEntryRef)) :
    Except JsString (Option SemanticEntryRef) :=
  match getField (definedEntries patch) key with
  | some value => .ok value.normalize
  | none => before

/-- The patch says of some name what the references do not. -/
def Changes (patch : EntryRefPatch) (before : JsString → Except JsString (Option SemanticEntryRef)) : Prop :=
  ∃ key value, getField (definedEntries patch) key = some value ∧ before key ≠ .ok value.normalize

/-- Where a merge looks for the references of a field. -/
def mergeBase (field : RefField) (state fallback : Option JsonText) : Option JsonText :=
  match rawField field state with
  | .ok (some _) => state
  | _ => fallback

theorem rawField_ok {field : RefField} {text : Option JsonText} {fields : List (JsString × JsonValue)} {subject : JsString}
    (h : parseProcessStateJsonStrict subject text = .ok fields) : rawField field text = .ok (getField fields field.name) := by
  have hparse : parseProcessStateJsonStrict (lit "stateJson") text = .ok fields := by
    rcases text with _ | text
    · exact h
    · cases text with
      | empty => exact h
      | malformed message => cases h
      | value value =>
        cases value with
        | obj fields => exact h
        | _ => cases h
  rw [rawField, hparse]
  rfl

theorem readRef_ok {field : RefField} {text : Option JsonText} {raw : Option JsonValue} {refs : Refs}
    (hraw : rawField field text = .ok raw) (hrefs : parseRefsStrict field raw = .ok refs) (key : JsString) :
    readRef field text key = .ok (refs.ref key) := by
  rw [readRef, hraw]
  simp only [bind, Except.bind, hrefs, pure, Except.pure]

/-- A merge that returns nothing leaves the references it found as the patch says; another one writes them. -/
theorem merge_effect {state fallback result : Option JsonText} {patch : EntryRefPatch} {field : RefField}
    (hpatch : Admissible field patch) (hrun : mergeEntryRefPatchIntoStateJson state patch field fallback = .ok result) :
    (result = none ∧ ¬ Changes patch (readRef field (mergeBase field state fallback))) ∨
    (∃ text, result = some text ∧ Changes patch (readRef field (mergeBase field state fallback)) ∧
      (∀ key, readRef field result key = patched patch key (readRef field (mergeBase field state fallback) key)) ∧
      ∀ other, other ≠ field → rawField other result = rawField other state) := by
  unfold mergeEntryRefPatchIntoStateJson at hrun
  by_cases hempty : definedEntries patch = []
  · rw [if_pos hempty] at hrun
    cases hrun
    refine .inl ⟨rfl, ?_⟩
    rintro ⟨key, value, hvalue, -⟩
    rw [hempty] at hvalue
    cases hvalue
  rw [if_neg hempty] at hrun
  cases hstate : parseProcessStateJsonStrict (lit "stateJson") state with
  | error message =>
    rw [hstate] at hrun
    cases hrun
  | ok fields =>
  cases hfallback : parseProcessStateJsonStrict (lit "fallbackStateJson") fallback with
  | error message =>
    rw [hstate, hfallback] at hrun
    cases hrun
  | ok fallbackFields =>
  cases hrefs : parseRefsStrict field ((getField fields field.name).or (getField fallbackFields field.name)) with
  | error message =>
    simp only [hstate, hfallback, hrefs, bind, Except.bind] at hrun
    cases hrun
  | ok refs =>
  cases hentries : (definedEntries patch).foldlM (applyEntry field) (false, refs) with
  | error message =>
    simp only [hstate, hfallback, hrefs, hentries, bind, Except.bind] at hrun
    cases hrun
  | ok acc =>
  obtain ⟨changed, nextRefs⟩ := acc
  simp only [hstate, hfallback, hrefs, hentries, bind, Except.bind, pure, Except.pure] at hrun
  obtain ⟨hnext, hget, hchanged⟩ :=
    applyEntries_effect (definedEntries patch) hpatch.nodup hpatch.names (parseRefsStrict_wellFormed hrefs) hentries
  have hbase : ∀ key, readRef field (mergeBase field state fallback) key = .ok (refs.ref key) := by
    intro key
    unfold mergeBase
    rw [rawField_ok hstate]
    cases hfield : getField fields field.name with
    | none =>
      rw [hfield, Option.none_or] at hrefs
      exact readRef_ok (rawField_ok hfallback) hrefs key
    | some json =>
      rw [hfield, Option.some_or] at hrefs
      exact readRef_ok (by rw [rawField_ok hstate, hfield]) hrefs key
  have hchanges : changed = true ↔ Changes patch (readRef field (mergeBase field state fallback)) := by
    rw [hchanged]
    simp [Changes, hbase]
  cases changed with
  | false =>
    cases hrun
    exact .inl ⟨rfl, fun h => by simpa using hchanges.2 h⟩
  | true =>
    cases hrun
    refine .inr ⟨_, rfl, hchanges.1 rfl, fun key => ?_, fun other hother => ?_⟩
    · obtain ⟨refs', hparse, href⟩ := parseRefsStrict_refsJson hnext
      have hraw : rawField field (some (.value (.obj (setField fields field.name (refsJson nextRefs))))) = .ok (some (refsJson nextRefs)) := by
        have hok : parseProcessStateJsonStrict (lit "stateJson") (some (.value (.obj (setField fields field.name (refsJson nextRefs))))) =
            .ok (setField fields field.name (refsJson nextRefs)) := rfl
        rw [rawField_ok hok, getField_setField, if_pos rfl]
      rw [if_pos rfl, readRef_ok hraw hparse, href, hget, patched, hbase]
      cases getField (definedEntries patch) key <;> rfl
    · have hok : parseProcessStateJsonStrict (lit "stateJson") (some (.value (.obj (setField fields field.name (refsJson nextRefs))))) =
          .ok (setField fields field.name (refsJson nextRefs)) := rfl
      have hname : other.name ≠ field.name := by
        cases other <;> cases field <;> first | exact absurd rfl hother | decide
      rw [if_pos rfl, rawField_ok hok, rawField_ok hstate, getField_setField, if_neg hname]

/-! ## What an operation commits -/

inductive Operation
  | turnOutcome (payload : OutcomeRefs)
  | executeAction (publication : Option Publication)
  | fireExternalSource (publication : Option Publication)

/-- The state the operation commits, from the stored one and the one its handlers left. -/
def Operation.state (stored handler : Option JsonText) : Operation → Except JsString (Option JsonText)
  | .turnOutcome payload => turnOutcomeState stored handler payload
  | .executeAction publication => executeActionState stored handler publication
  | .fireExternalSource publication => fireExternalSourceState stored handler publication

/-- The patch the operation derives for a field. -/
def Operation.patch : Operation → RefField → Except JsString EntryRefPatch
  | .turnOutcome payload, .semanticEntryRefs => .ok (deriveTurnOutcomeSemanticEntryRefPatch payload)
  | .turnOutcome payload, .productRefs => deriveTurnOutcomeProductRefPatch payload
  | .executeAction publication, .productRefs => .ok ((publication.map (publicationPatch (lit "action"))).getD [])
  | .fireExternalSource publication, .productRefs => .ok ((publication.map (publicationPatch (lit "external"))).getD [])
  | _, .semanticEntryRefs => .ok []

/-- The handlers wrote the field. -/
def Writes (field : RefField) (handler : Option JsonText) : Prop := ∃ json, rawField field handler = .ok (some json)

/-- The references before the patch: the ones of the handlers when they wrote the field, else the stored ones. -/
def refsBefore (field : RefField) (stored handler : Option JsonText) (key : JsString) : Except JsString (Option SemanticEntryRef) :=
  match rawField field handler with
  | .ok (some _) => readRef field handler key
  | _ => readRef field stored key

/-- The committed state has the references of a field that it should have. -/
def Carried (field : RefField) (patch : EntryRefPatch) (stored handler committed : Option JsonText) : Prop :=
  ∀ key, readRef field committed key = patched patch key (refsBefore field stored handler key)

/-- The references of a field are not lost: no handler replaced the state, it wrote the field itself, the patch changes
what is stored, or what is stored reads like the new state. -/
def NotDropped (field : RefField) (patch : EntryRefPatch) (stored handler : Option JsonText) : Prop :=
  handler = none ∨ Writes field handler ∨ Changes patch (readRef field stored) ∨
    ∀ key, readRef field handler key = readRef field stored key

theorem readRef_congr {field : RefField} {a b : Option JsonText} (h : rawField field a = rawField field b) (key : JsString) :
    readRef field a key = readRef field b key := by
  rw [readRef, readRef, h]

theorem refsBefore_of_writes {field : RefField} {stored handler : Option JsonText} (h : Writes field handler) (key : JsString) :
    refsBefore field stored handler key = readRef field handler key := by
  obtain ⟨json, hjson⟩ := h
  rw [refsBefore, hjson]

theorem refsBefore_of_not_writes {field : RefField} {stored handler : Option JsonText} (h : ¬ Writes field handler) (key : JsString) :
    refsBefore field stored handler key = readRef field stored key := by
  unfold refsBefore
  split
  · rename_i json hjson
    exact absurd ⟨json, hjson⟩ h
  · rfl

theorem patched_of_not_changes {patch : EntryRefPatch} {before : JsString → Except JsString (Option SemanticEntryRef)}
    (h : ¬ Changes patch before) (key : JsString) : patched patch key (before key) = before key := by
  unfold patched
  cases hvalue : getField (definedEntries patch) key with
  | none => rfl
  | some value =>
    by_contra hdiff
    exact h ⟨key, value, hvalue, Ne.symm hdiff⟩

/-- A merge looks for the references where they should come from. -/
theorem readRef_mergeBase {field : RefField} {state stored handler : Option JsonText}
    (hstate : rawField field state = rawField field (handler.or stored)) (key : JsString) :
    readRef field (mergeBase field state stored) key = refsBefore field stored handler key := by
  by_cases hwrites : Writes field handler
  · obtain ⟨json, hjson⟩ := hwrites
    cases handler with
    | none => cases hjson
    | some text =>
      rw [Option.some_or] at hstate
      rw [refsBefore_of_writes ⟨json, hjson⟩, mergeBase, hstate, hjson]
      exact readRef_congr hstate key
  · rw [refsBefore_of_not_writes hwrites]
    cases handler with
    | none =>
      rw [Option.none_or] at hstate
      unfold mergeBase
      split
      · exact readRef_congr hstate key
      · rfl
    | some text =>
      unfold mergeBase
      split
      · rename_i json hjson
        exact absurd ⟨json, hstate.symm.trans hjson⟩ hwrites
      · rfl

/-- One merge carries the references of its field exactly when they are not dropped. -/
theorem merge_carried_iff {field : RefField} {patch : EntryRefPatch} {state stored handler result committed : Option JsonText}
    (hpatch : Admissible field patch) (hstate : rawField field state = rawField field (handler.or stored))
    (hrun : mergeEntryRefPatchIntoStateJson state patch field stored = .ok result)
    (hcommitted : rawField field committed = rawField field (result.or state)) :
    Carried field patch stored handler committed ↔ NotDropped field patch stored handler := by
  have hbase : readRef field (mergeBase field state stored) = refsBefore field stored handler :=
    funext (readRef_mergeBase hstate)
  have hchanges : Changes patch (refsBefore field stored handler) → NotDropped field patch stored handler := by
    intro hc
    by_cases hwrites : Writes field handler
    · exact .inr (.inl hwrites)
    · rw [funext (refsBefore_of_not_writes hwrites)] at hc
      exact .inr (.inr (.inl hc))
  rcases merge_effect hpatch hrun with ⟨rfl, hsame⟩ | ⟨text, rfl, hc, hread, -⟩
  · -- the patch says nothing new, so the state the handlers left is committed as it is
    rw [hbase] at hsame
    rw [Option.none_or] at hcommitted
    have hreads : ∀ key, readRef field committed key = readRef field (handler.or stored) key :=
      readRef_congr (hcommitted.trans hstate)
    have hcarried : Carried field patch stored handler committed ↔
        ∀ key, readRef field (handler.or stored) key = refsBefore field stored handler key := by
      unfold Carried
      simp only [hreads, patched_of_not_changes hsame]
    rw [hcarried]
    by_cases hwrites : Writes field handler
    · refine ⟨fun _ => .inr (.inl hwrites), fun _ key => ?_⟩
      cases handler with
      | none => obtain ⟨json, hjson⟩ := hwrites; cases hjson
      | some text => exact (refsBefore_of_writes hwrites key).symm
    · simp only [refsBefore_of_not_writes hwrites]
      rw [funext (refsBefore_of_not_writes hwrites)] at hsame
      cases handler with
      | none => exact ⟨fun _ => .inl rfl, fun _ _ => rfl⟩
      | some text =>
        refine ⟨fun h => .inr (.inr (.inr h)), ?_⟩
        rintro (h | h | h | h)
        · cases h
        · exact absurd h hwrites
        · exact absurd h hsame
        · exact h
  · rw [hbase] at hc hread
    refine ⟨fun _ => hchanges hc, fun _ key => ?_⟩
    rw [readRef_congr hcommitted, Option.some_or, hread]

theorem admissible_nil (field : RefField) : Admissible field [] := ⟨List.nodup_nil, fun entry h => by cases h⟩

theorem admissible_product (entry : JsString × PatchValue) : Admissible .productRefs [entry] :=
  ⟨(List.nodup_singleton entry.1).sublist (List.filter_sublist.map Prod.fst), fun _ _ => trivial⟩

theorem SemanticEntryRefKey.names (key : SemanticEntryRefKey) : RefField.Names .semanticEntryRefs key.name :=
  List.mem_map_of_mem (by cases key <;> simp [SemanticEntryRefKey.all])

theorem names_setField {patch : EntryRefPatch} (h : ∀ entry ∈ patch, RefField.Names .semanticEntryRefs entry.1)
    (key : SemanticEntryRefKey) (value : PatchValue) :
    ∀ entry ∈ setField patch key.name value, RefField.Names .semanticEntryRefs entry.1 := by
  intro entry hentry
  have hname : entry.1 ∈ (setField patch key.name value).map Prod.fst := List.mem_map_of_mem hentry
  rw [keys_setField] at hname
  have hold : entry.1 ∈ patch.map Prod.fst → RefField.Names .semanticEntryRefs entry.1 := by
    intro hmem
    obtain ⟨old, hold, heq⟩ := List.mem_map.1 hmem
    rw [← heq]
    exact h old hold
  split at hname
  · exact hold hname
  · rcases List.mem_append.1 hname with hmem | hmem
    · exact hold hmem
    · rw [List.mem_singleton] at hmem
      rw [hmem]
      exact key.names

/-- The patch of an outcome names each of the four references at most once. -/
theorem admissible_outcome (payload : OutcomeRefs) :
    Admissible .semanticEntryRefs (deriveTurnOutcomeSemanticEntryRefPatch payload) := by
  suffices h : ((deriveTurnOutcomeSemanticEntryRefPatch payload).map Prod.fst).Nodup ∧
      ∀ entry ∈ deriveTurnOutcomeSemanticEntryRefPatch payload, RefField.Names .semanticEntryRefs entry.1 by
    exact ⟨h.1.sublist (List.filter_sublist.map Prod.fst), fun entry he => h.2 entry (List.mem_of_mem_filter he)⟩
  unfold deriveTurnOutcomeSemanticEntryRefPatch
  extract_lets patch
  have hpatch : (patch.map Prod.fst).Nodup ∧ ∀ entry ∈ patch, RefField.Names .semanticEntryRefs entry.1 := by
    simp only [patch]
    split
    · exact ⟨List.nodup_nil, fun entry he => by cases he⟩
    · refine ⟨List.nodup_singleton _, fun entry he => ?_⟩
      rw [List.mem_singleton] at he
      rw [he]
      exact SemanticEntryRefKey.names .rootEntry
  split
  · exact hpatch
  · extract_lets result patch'
    have hpatch' : (patch'.map Prod.fst).Nodup ∧ ∀ entry ∈ patch', RefField.Names .semanticEntryRefs entry.1 := by
      simp only [patch']
      split
      · exact ⟨nodup_setField hpatch.1 _ _, names_setField hpatch.2 _ _⟩
      · exact hpatch
    split
    · exact hpatch'
    · exact ⟨nodup_setField hpatch'.1 _ _, names_setField hpatch'.2 _ _⟩

theorem deriveProduct_admissible {payload : OutcomeRefs} {patch : EntryRefPatch}
    (h : deriveTurnOutcomeProductRefPatch payload = .ok patch) : Admissible .productRefs patch := by
  unfold deriveTurnOutcomeProductRefPatch at h
  split at h
  · cases h
    exact admissible_nil _
  · split at h
    · cases h
    · split at h
      · cases h
      · cases h
        exact admissible_product _

/-- A merge leaves the other field as it was. -/
theorem rawField_merge {field other : RefField} {state fallback result : Option JsonText} {patch : EntryRefPatch}
    (hpatch : Admissible field patch) (hrun : mergeEntryRefPatchIntoStateJson state patch field fallback = .ok result)
    (hother : other ≠ field) : rawField other (result.or state) = rawField other state := by
  rcases merge_effect hpatch hrun with ⟨rfl, -⟩ | ⟨text, rfl, -, -, hraw⟩
  · rw [Option.none_or]
  · exact hraw other hother

theorem turnOutcome_carried_iff {stored handler committed : Option JsonText} {payload : OutcomeRefs}
    {field : RefField} {patch : EntryRefPatch} (hcommit : turnOutcomeState stored handler payload = .ok committed)
    (hpatch : (Operation.turnOutcome payload).patch field = .ok patch) :
    Carried field patch stored handler committed ↔ NotDropped field patch stored handler := by
  unfold turnOutcomeState at hcommit
  cases hproduct : deriveTurnOutcomeProductRefPatch payload with
  | error message =>
    rw [hproduct] at hcommit
    cases hcommit
  | ok productPatch =>
  cases hsemantic : mergeEntryRefPatchIntoStateJson (handler.or stored) (deriveTurnOutcomeSemanticEntryRefPatch payload)
      .semanticEntryRefs stored with
  | error message =>
    simp only [hproduct, hsemantic, bind, Except.bind] at hcommit
    cases hcommit
  | ok semanticState =>
  cases hmerge : mergeEntryRefPatchIntoStateJson (semanticState.or (handler.or stored)) productPatch .productRefs stored with
  | error message =>
    simp only [hproduct, hsemantic, hmerge, bind, Except.bind] at hcommit
    cases hcommit
  | ok productState =>
  simp only [hproduct, hsemantic, hmerge, bind, Except.bind, pure, Except.pure, Except.ok.injEq] at hcommit
  rw [Option.or_assoc] at hcommit
  subst hcommit
  have hsound := admissible_outcome payload
  have hproductSound := deriveProduct_admissible hproduct
  cases field with
  | semanticEntryRefs =>
    obtain rfl : deriveTurnOutcomeSemanticEntryRefPatch payload = patch := Except.ok.inj hpatch
    exact merge_carried_iff hsound rfl hsemantic (rawField_merge hproductSound hmerge (by decide))
  | productRefs =>
    obtain rfl : productPatch = patch := Except.ok.inj (hproduct.symm.trans hpatch)
    exact merge_carried_iff hproductSound (rawField_merge hsound hsemantic (by decide)) hmerge rfl

theorem mergeNothing (state fallback : Option JsonText) (field : RefField) :
    mergeEntryRefPatchIntoStateJson state [] field fallback = .ok none := rfl

theorem publishing_carried_iff {source : JsString} {stored handler committed : Option JsonText} {publication : Option Publication}
    (hcommit : publishingState source stored handler publication = .ok committed) :
    (Carried .productRefs ((publication.map (publicationPatch source)).getD []) stored handler committed ↔
      NotDropped .productRefs ((publication.map (publicationPatch source)).getD []) stored handler) ∧
    (Carried .semanticEntryRefs [] stored handler committed ↔ NotDropped .semanticEntryRefs [] stored handler) := by
  have hnothing : ∀ field, rawField field committed = rawField field (handler.or stored) →
      (Carried field [] stored handler committed ↔ NotDropped field [] stored handler) := fun field hraw =>
    merge_carried_iff (admissible_nil field) rfl (mergeNothing (handler.or stored) stored field) hraw
  cases publication with
  | none =>
    cases hcommit
    exact ⟨hnothing _ rfl, hnothing _ rfl⟩
  | some publication =>
    unfold publishingState at hcommit
    cases hmerge : mergeEntryRefPatchIntoStateJson (handler.or stored) (publicationPatch source publication) .productRefs stored with
    | error message =>
      simp only [hmerge, bind, Except.bind] at hcommit
      cases hcommit
    | ok patchedState =>
      simp only [hmerge, bind, Except.bind] at hcommit
      cases hcommit
      have hpatch : Admissible .productRefs (publicationPatch source publication) := admissible_product _
      exact ⟨merge_carried_iff hpatch rfl hmerge rfl, hnothing _ (rawField_merge hpatch hmerge (by decide))⟩

/-- An operation commits the references it should exactly when it does not drop them. -/
theorem refs_carried_iff (operation : Operation) (stored handler committed : Option JsonText) (field : RefField)
    (patch : EntryRefPatch) (hcommit : operation.state stored handler = .ok committed) (hpatch : operation.patch field = .ok patch) :
    Carried field patch stored handler committed ↔ NotDropped field patch stored handler := by
  cases operation with
  | turnOutcome payload => exact turnOutcome_carried_iff hcommit hpatch
  | executeAction publication =>
    cases field with
    | productRefs =>
      cases hpatch
      exact (publishing_carried_iff hcommit).1
    | semanticEntryRefs =>
      cases hpatch
      exact (publishing_carried_iff hcommit).2
  | fireExternalSource publication =>
    cases field with
    | productRefs =>
      cases hpatch
      exact (publishing_carried_iff hcommit).1
    | semanticEntryRefs =>
      cases hpatch
      exact (publishing_carried_iff hcommit).2

/-- A stored plan. -/
def samplePlan : JsonValue := .obj [(lit "plan", .obj [(lit "entryId", .str (lit "e1")), (lit "turnRecordId", .null)])]

def sampleStored : JsonText := .value (.obj [(lit "semanticEntryRefs", samplePlan)])

/-- A state of the handler's own. -/
def sampleHandler : JsonText := .value (.obj [(lit "step", .num (lit "2"))])

/-- With a plan among the references that the handler wrote. -/
def sampleHandlerWithPlan : JsonText := .value (.obj [(lit "step", .num (lit "2")), (lit "semanticEntryRefs", samplePlan)])

theorem refs_carried_iff_written :
    Carried .semanticEntryRefs [] (some sampleStored) (some sampleHandlerWithPlan) (some sampleHandlerWithPlan) ↔
      NotDropped .semanticEntryRefs [] (some sampleStored) (some sampleHandlerWithPlan) :=
  refs_carried_iff (.executeAction none) (some sampleStored) (some sampleHandlerWithPlan) (some sampleHandlerWithPlan) .semanticEntryRefs []
    rfl rfl

/-- A handler that replaces the state drops the plan when nothing is published. -/
theorem plan_dropped : ¬ ∀ (operation : Operation) (stored handler committed : Option JsonText) (field : RefField)
    (patch : EntryRefPatch), operation.state stored handler = .ok committed → operation.patch field = .ok patch →
      Carried field patch stored handler committed := by
  intro h
  have hplan := h (.fireExternalSource none) (some sampleStored) (some sampleHandler) (some sampleHandler) .semanticEntryRefs [] rfl rfl
    (lit "plan")
  have hlost : readRef .semanticEntryRefs (some sampleHandler) (lit "plan") = .ok none := by rfl
  have hbefore : patched [] (lit "plan") (refsBefore .semanticEntryRefs (some sampleStored) (some sampleHandler) (lit "plan")) =
      .ok (some ⟨⟨lit "e1", by decide, by decide⟩, none⟩) := by rfl
  rw [hlost, hbefore] at hplan
  cases hplan

end Leitwerk.EntryRefs
