import Leitwerk.External.PendingFires
/-!
# A merged fire stands for the fires it was merged from

What is read of a fire when it is merged are its instruction, its provider
records, and of the first one the other fields. A row that has these of a list
of fires stands for the list: merging goes on from it as it does from the list.
A merged fire stands for its fires, but where the first input is empty and no
fire has a provider input, a merged instruction is taken for one.
-/

namespace Leitwerk.External.PendingFires

open JsString (lit trim Trimmed)
open JsonSyntax

variable {ν : Type}

/-! ## Instructions -/

theorem textOf_trimmed {value : Option (JsonTree ν)} {text : JsString} (h : textOf value = some text) : Trimmed text := by
  unfold textOf at h
  split at h
  · rename_i s
    split at h
    · cases h
    · rename_i hne
      cases h
      exact ⟨hne, JsString.trim_trim s⟩
  · cases h

theorem textOf_str {text : JsString} (h : Trimmed text) : textOf (some (.str text : JsonTree ν)) = some text := by
  simp [textOf, h.1, h.2]

theorem instructionOf_trimmed {input : Record ν} {text : JsString} (h : instructionOf input = some text) : Trimmed text := by
  obtain ⟨key, -, hkey⟩ := List.exists_of_findSome?_eq_some h
  exact textOf_trimmed hkey

theorem mergeInstructionText_trimmed {values : List (Record ν)} {text : JsString} (h : mergeInstructionText values = some text) :
    Trimmed text := by
  unfold mergeInstructionText at h
  dsimp only at h
  split at h
  · cases h
  · rename_i hne
    cases h
    refine JsString.trimmed_intercalate _ hne fun part hpart => ?_
    obtain ⟨input, -, hinput⟩ := List.mem_filterMap.1 hpart
    exact instructionOf_trimmed hinput

theorem mergeInstructionText_eq_none {values : List (Record ν)} :
    mergeInstructionText values = none ↔ ∀ input ∈ values, instructionOf input = none := by
  unfold mergeInstructionText
  dsimp only
  rw [← List.filterMap_eq_nil_iff]
  split <;> simp_all

/-- What was merged before counts like the fires it was merged from. -/
theorem mergeInstructionText_cons {row : Record ν} {values : List (Record ν)} (h : instructionOf row = mergeInstructionText values)
    (others : List (Record ν)) : mergeInstructionText (row :: others) = mergeInstructionText (values ++ others) := by
  unfold mergeInstructionText
  rw [List.filterMap_cons, h, List.filterMap_append]
  unfold mergeInstructionText
  dsimp only
  by_cases hnone : values.filterMap instructionOf = []
  · simp [hnone]
  · simp [hnone, JsString.intercalate_append _ hnone]

/-! ## The keys of the instruction -/

theorem mem_instructionSlots {input : Record ν} {key : JsString} (h : key ∈ instructionSlots input) : key ∈ instructionKeys := by
  unfold instructionSlots at h
  dsimp only at h
  split at h
  · rw [List.mem_singleton.1 h]
    decide
  · exact (List.mem_filter.1 h).1

theorem instructionSlots_ne_nil (input : Record ν) : instructionSlots input ≠ [] := by
  unfold instructionSlots
  dsimp only
  split
  · exact List.cons_ne_nil _ _
  · assumption

/-- A key of the input that may hold an instruction is one of them. -/
theorem owned_mem_instructionSlots {input : Record ν} {key : JsString} (hkey : key ∈ instructionKeys)
    (h : (input.lookup key).isSome) : key ∈ instructionSlots input := by
  have hmem : key ∈ instructionKeys.filter fun key => (input.lookup key).isSome := List.mem_filter.2 ⟨hkey, h⟩
  unfold instructionSlots
  dsimp only
  rw [if_neg (List.ne_nil_of_mem hmem)]
  exact hmem

theorem providerInputsKey_not_slot (input : Record ν) : providerInputsKey ∉ instructionSlots input :=
  fun h => absurd (mem_instructionSlots h) (by decide)

theorem lookup_foldl_addField {value : JsonTree ν} (keys : List JsString) (input : Record ν) (key : JsString) :
    (keys.foldl (fun merged key => addField merged (key, value)) input).lookup key =
      if key ∈ keys then some value else input.lookup key := by
  induction keys generalizing input with
  | nil => rfl
  | cons k keys ih =>
    rw [List.foldl_cons, ih, lookup_addField]
    by_cases hin : key ∈ keys
    · simp [hin]
    · by_cases hk : key = k <;> simp [hin, hk]

theorem lookup_withInstruction (input : Record ν) (instruction : Option JsString) (key : JsString) :
    (withInstruction input instruction).lookup key =
      if key ∈ instructionSlots input then (instruction.map JsonTree.str).or (input.lookup key) else input.lookup key := by
  cases instruction with
  | none => simp [withInstruction]
  | some text =>
    rw [withInstruction, lookup_foldl_addField]
    rfl

theorem filter_instructionSlots (input : Record ν) :
    (instructionKeys.filter fun key => key ∈ instructionSlots input) = instructionSlots input := by
  unfold instructionSlots
  dsimp only
  split
  · decide
  · refine List.filter_congr fun key hkey => ?_
    rw [Bool.eq_iff_iff, decide_eq_true_iff, List.mem_filter]
    exact and_iff_right hkey

/-- Storing the instruction leaves the keys that hold it as they are. -/
theorem instructionSlots_congr {input merged : Record ν} {instruction : Option JsString}
    (h : ∀ key ∈ instructionKeys, merged.lookup key = (withInstruction input instruction).lookup key) :
    instructionSlots merged = instructionSlots input := by
  have howned : (instructionKeys.filter fun key => (merged.lookup key).isSome) =
      if instruction = none then instructionKeys.filter fun key => (input.lookup key).isSome else instructionSlots input := by
    cases instruction with
    | none =>
      rw [if_pos rfl]
      refine List.filter_congr fun key hkey => ?_
      rw [h key hkey]
      rfl
    | some text =>
      rw [if_neg (Option.some_ne_none text), ← filter_instructionSlots input]
      refine List.filter_congr fun key hkey => ?_
      rw [h key hkey, lookup_withInstruction]
      by_cases hslot : key ∈ instructionSlots input
      · simp [hslot]
      · have hnone : input.lookup key = none := by
          by_contra hsome
          exact hslot (owned_mem_instructionSlots hkey (Option.isSome_iff_ne_none.2 hsome))
        simp [hslot, hnone]
  conv_lhs => unfold instructionSlots
  dsimp only
  rw [howned]
  cases instruction with
  | none => rfl
  | some text => simp [instructionSlots_ne_nil]

/-- What is stored under these keys is read back. -/
theorem instructionOf_withInstruction {input merged : Record ν} {values : List (Record ν)}
    (h : ∀ key ∈ instructionKeys, merged.lookup key = (withInstruction input (mergeInstructionText (input :: values))).lookup key) :
    instructionOf merged = mergeInstructionText (input :: values) := by
  cases htext : mergeInstructionText (input :: values) with
  | none =>
    have hinput := mergeInstructionText_eq_none.1 htext input List.mem_cons_self
    rw [htext] at h
    refine List.findSome?_eq_none_iff.2 fun key hkey => ?_
    rw [h key hkey]
    exact List.findSome?_eq_none_iff.1 hinput key hkey
  | some text =>
    have htrimmed := mergeInstructionText_trimmed htext
    rw [htext] at h
    have hslot : ∀ key ∈ instructionSlots input, textOf (merged.lookup key) = some text := by
      intro key hkey
      rw [h key (mem_instructionSlots hkey), lookup_withInstruction, if_pos hkey]
      exact textOf_str htrimmed
    have hother : ∀ key ∈ instructionKeys, key ∉ instructionSlots input → textOf (merged.lookup key) = none := by
      intro key hkey hnot
      have hnone : input.lookup key = none := by
        by_contra hsome
        exact hnot (owned_mem_instructionSlots hkey (Option.isSome_iff_ne_none.2 hsome))
      rw [h key hkey, lookup_withInstruction, if_neg hnot, hnone]
      rfl
    obtain ⟨slot, hmem⟩ := List.exists_mem_of_ne_nil _ (instructionSlots_ne_nil input)
    have hsome : (instructionOf merged).isSome :=
      List.findSome?_isSome_iff.2 ⟨slot, mem_instructionSlots hmem, by rw [hslot slot hmem]; rfl⟩
    obtain ⟨found, hfound⟩ := Option.isSome_iff_exists.1 hsome
    obtain ⟨key, hkey, htextOf⟩ := List.exists_of_findSome?_eq_some hfound
    by_cases hin : key ∈ instructionSlots input
    · rw [hfound, ← htextOf, hslot key hin]
    · rw [hother key hkey hin] at htextOf
      cases htextOf

/-! ## Provider records -/

theorem providerRecordsFrom_ne_nil {value record : Record ν} {key : JsString} (h : record ∈ providerRecordsFrom value key) :
    record ≠ [] := by
  unfold providerRecordsFrom at h
  split at h
  · simpa using (List.mem_filter.1 h).2
  · split at h
    · cases h
    · rename_i hvalue
      rw [List.mem_singleton.1 h]
      simpa using hvalue

/-- A list of records is read back. -/
theorem providerRecordsFrom_arr {value : Record ν} {key : JsString} {records : List (Record ν)} (hne : ∀ record ∈ records, record ≠ [])
    (h : value.lookup key = some (.arr (records.map .obj))) : providerRecordsFrom value key = records := by
  rw [providerRecordsFrom, h]
  dsimp only
  rw [List.map_map, List.filter_eq_self.2]
  · exact List.map_id records
  · intro entry hentry
    have hentry : entry ∈ records.map id := hentry
    rw [List.map_id] at hentry
    simpa using hne entry hentry

theorem providerInputs_ne_nil {fires : List (Fire ν)} {record : Record ν} (h : record ∈ providerInputs fires) : record ≠ [] := by
  obtain ⟨fire, -, hrecord⟩ := List.mem_flatMap.1 h
  exact providerRecordsFrom_ne_nil hrecord

theorem providerEvents_ne_nil {fires : List (Fire ν)} {record : Record ν} (h : record ∈ providerEvents fires) : record ≠ [] := by
  obtain ⟨fire, -, hrecord⟩ := List.mem_flatMap.1 h
  exact providerRecordsFrom_ne_nil hrecord

/-! ## What is merged -/

section Merge

variable {first : Fire ν} {rest : List (Fire ν)}

theorem lookup_mergedInput (first : Fire ν) (rest : List (Fire ν)) (key : JsString) :
    (mergePendingFires (first :: rest)).input.lookup key =
      if key = providerInputsKey ∧ providerInputs (first :: rest) ≠ [] then
        some (.arr ((providerInputs (first :: rest)).map .obj))
      else (withInstruction first.input (mergeInstructionText ((first :: rest).map (·.input)))).lookup key := by
  rw [mergePendingFires]
  dsimp only
  cases hinputs : providerInputs (first :: rest) with
  | nil => simp
  | cons record records =>
    rw [List.isEmpty_cons, if_neg Bool.false_ne_true, lookup_addField]
    by_cases hkey : key = providerInputsKey <;> simp [hkey]

theorem lookup_mergedEvent (first : Fire ν) (rest : List (Fire ν)) (key : JsString) :
    (mergePendingFires (first :: rest)).event.lookup key =
      if key = providerEventsKey then some (.arr ((providerEvents (first :: rest)).map .obj))
      else ((providerEvents (first :: rest)).head?.getD first.event).lookup key := by
  rw [mergePendingFires]
  exact lookup_addField _ _ _ _

theorem lookup_merged_instructionKeys {key : JsString} (hkey : key ∈ instructionKeys) :
    (mergePendingFires (first :: rest)).input.lookup key =
      (withInstruction first.input (mergeInstructionText ((first :: rest).map (·.input)))).lookup key := by
  rw [lookup_mergedInput, if_neg]
  rintro ⟨rfl, -⟩
  exact absurd hkey (by decide)

theorem merged_events : providerRecordsFrom (mergePendingFires (first :: rest)).event providerEventsKey = providerEvents (first :: rest) :=
  providerRecordsFrom_arr (fun _ => providerEvents_ne_nil) (by rw [lookup_mergedEvent, if_pos rfl])

theorem merged_instruction : instructionOf (mergePendingFires (first :: rest)).input =
    mergeInstructionText ((first :: rest).map (·.input)) :=
  instructionOf_withInstruction fun _ hkey => lookup_merged_instructionKeys hkey

end Merge

/-! ## Standing for a list of fires -/

/-- No record of an input is a provider input. -/
def NoProviderInput (input : Record ν) : Prop :=
  input = [] ∨ ∃ nested, input.lookup providerInputsKey = some (.arr nested) ∧ ∀ entry ∈ nested, normalizeRecord entry = []

/-- Some text of an input counts as an instruction. -/
def HasInstruction (input : Record ν) : Prop :=
  ∃ key ∈ instructionKeys, ∃ text, input.lookup key = some (.str text) ∧ JsString.trim text ≠ []

/-- The first input is empty, no fire has a provider input, but one has an instruction. -/
def Phantom (fires : List (Fire ν)) : Prop :=
  (∃ first, fires.head? = some first ∧ first.input = []) ∧ (∀ fire ∈ fires, NoProviderInput fire.input) ∧
    ∃ fire ∈ fires, HasInstruction fire.input

/-- The same values under the same keys. -/
def SameRecord (a b : Record ν) : Prop := ∀ key, a.lookup key = b.lookup key

structure Same (a b : Fire ν) : Prop where
  input : SameRecord a.input b.input
  event : SameRecord a.event b.event
  queuedCount : a.queuedCount = b.queuedCount

/-- What is read of a row when it is merged is that of the fires `first :: rest`. -/
structure Stands (row first : Fire ν) (rest : List (Fire ν)) : Prop where
  slots : instructionSlots row.input = instructionSlots first.input
  instruction : instructionOf row.input = mergeInstructionText ((first :: rest).map (·.input))
  inputs : providerRecordsFrom row.input providerInputsKey = providerInputs (first :: rest)
  events : providerRecordsFrom row.event providerEventsKey = providerEvents (first :: rest)
  field : ∀ key, key ∉ instructionSlots first.input → key ≠ providerInputsKey → row.input.lookup key = first.input.lookup key
  uninstructed : mergeInstructionText ((first :: rest).map (·.input)) = none →
    ∀ key ∈ instructionSlots first.input, row.input.lookup key = first.input.lookup key
  noInputs : providerInputs (first :: rest) = [] → row.input.lookup providerInputsKey = first.input.lookup providerInputsKey
  noEvents : providerEvents (first :: rest) = [] →
    ∀ key, key ≠ providerEventsKey → row.event.lookup key = first.event.lookup key
  queuedCount : row.queuedCount = ((first :: rest).map (·.queuedCount)).sum

theorem noProviderInput_iff {input : Record ν} : NoProviderInput input ↔ providerRecordsFrom input providerInputsKey = [] := by
  unfold NoProviderInput providerRecordsFrom
  split
  · rename_i nested hnested
    have hne : input ≠ [] := by
      rintro rfl
      cases hnested
    simp [hnested, hne]
  · rename_i hother
    have hnot : ¬ ∃ nested, input.lookup providerInputsKey = some (.arr nested) ∧ ∀ entry ∈ nested, normalizeRecord entry = [] :=
      fun ⟨nested, hnested, _⟩ => hother nested hnested
    simp [hnot]

theorem hasInstruction_iff {input : Record ν} : HasInstruction input ↔ instructionOf input ≠ none := by
  unfold HasInstruction instructionOf
  rw [ne_eq, List.findSome?_eq_none_iff]
  constructor
  · rintro ⟨key, hkey, text, hlookup, htext⟩ hnone
    have hkeyNone := hnone key hkey
    rw [hlookup, textOf, if_neg htext] at hkeyNone
    cases hkeyNone
  · intro hsome
    push Not at hsome
    obtain ⟨key, hkey, htextOf⟩ := hsome
    unfold textOf at htextOf
    split at htextOf
    · rename_i text hlookup
      split at htextOf
      · exact absurd rfl htextOf
      · rename_i htext
        exact ⟨key, hkey, text, hlookup, htext⟩
    · exact absurd rfl htextOf

theorem phantom_cons {first : Fire ν} {rest : List (Fire ν)} :
    Phantom (first :: rest) ↔ first.input = [] ∧ providerInputs (first :: rest) = [] ∧
      mergeInstructionText ((first :: rest).map (·.input)) ≠ none := by
  unfold Phantom
  refine and_congr (by simp) (and_congr ?_ ?_)
  · rw [providerInputs, List.flatMap_eq_nil_iff]
    exact forall₂_congr fun fire _ => noProviderInput_iff
  · rw [ne_eq, mergeInstructionText_eq_none, List.forall_mem_map]
    push Not
    exact exists_congr fun fire => and_congr_right fun _ => hasInstruction_iff

theorem eq_nil_of_lookup {record : Record ν} (h : ∀ key, record.lookup key = none) : record = [] := by
  cases record with
  | nil => rfl
  | cons field record =>
    have hfield := h field.1
    rw [List.lookup_cons, beq_self_eq_true] at hfield
    cases hfield

section Stands

variable {row first : Fire ν} {rest : List (Fire ν)}

/-- A fire stands for itself. -/
theorem Stands.refl (first : Fire ν) : Stands first first [] where
  slots := rfl
  instruction := by
    unfold mergeInstructionText
    rw [List.map_singleton, List.filterMap_cons]
    cases instructionOf first.input <;> simp
  inputs := by simp [providerInputs]
  events := by simp [providerEvents]
  field := fun _ _ _ => rfl
  uninstructed := fun _ _ _ => rfl
  noInputs := fun _ => rfl
  noEvents := fun _ _ _ => rfl
  queuedCount := by simp

/-- The row and other fires have what all the fires have. -/
theorem Stands.all (h : Stands row first rest) (others : List (Fire ν)) :
    providerInputs (row :: others) = providerInputs (first :: (rest ++ others)) ∧
      providerEvents (row :: others) = providerEvents (first :: (rest ++ others)) ∧
      mergeInstructionText ((row :: others).map (·.input)) = mergeInstructionText ((first :: (rest ++ others)).map (·.input)) ∧
      ((row :: others).map (·.queuedCount)).sum = ((first :: (rest ++ others)).map (·.queuedCount)).sum := by
  refine ⟨?_, ?_, ?_, ?_⟩
  · rw [providerInputs, List.flatMap_cons, h.inputs, ← List.cons_append, providerInputs, providerInputs, List.flatMap_append]
  · rw [providerEvents, List.flatMap_cons, h.events, ← List.cons_append, providerEvents, providerEvents, List.flatMap_append]
  · rw [List.map_cons, mergeInstructionText_cons h.instruction, ← List.map_append, List.cons_append]
  · rw [List.map_cons, List.sum_cons, h.queuedCount, ← List.cons_append, List.map_append, List.sum_append]

/-- Where nothing is merged, all the fires before have nothing either. -/
theorem providerInputs_nil_before {others : List (Fire ν)} (h : providerInputs (first :: (rest ++ others)) = []) :
    providerInputs (first :: rest) = [] := by
  rw [← List.cons_append, providerInputs, List.flatMap_append] at h
  exact (List.append_eq_nil_iff.1 h).1

theorem providerEvents_nil_before {others : List (Fire ν)} (h : providerEvents (first :: (rest ++ others)) = []) :
    providerEvents (first :: rest) = [] := by
  rw [← List.cons_append, providerEvents, List.flatMap_append] at h
  exact (List.append_eq_nil_iff.1 h).1

theorem mergeInstructionText_none_before {others : List (Fire ν)}
    (h : mergeInstructionText ((first :: (rest ++ others)).map (·.input)) = none) :
    mergeInstructionText ((first :: rest).map (·.input)) = none := by
  rw [← List.cons_append, List.map_append] at h
  exact mergeInstructionText_eq_none.2 fun input hinput => mergeInstructionText_eq_none.1 h input (List.mem_append_left _ hinput)

/-- The fields of the row that are kept are those of the first fire. -/
theorem Stands.lookup_withInstruction (h : Stands row first rest) (others : List (Fire ν)) {key : JsString}
    (hkey : key = providerInputsKey → providerInputs (first :: (rest ++ others)) = []) :
    (withInstruction row.input (mergeInstructionText ((first :: (rest ++ others)).map (·.input)))).lookup key =
      (withInstruction first.input (mergeInstructionText ((first :: (rest ++ others)).map (·.input)))).lookup key := by
  rw [PendingFires.lookup_withInstruction, PendingFires.lookup_withInstruction, h.slots]
  by_cases hslot : key ∈ instructionSlots first.input
  · rw [if_pos hslot, if_pos hslot]
    cases htext : mergeInstructionText ((first :: (rest ++ others)).map (·.input)) with
    | none => rw [h.uninstructed (mergeInstructionText_none_before htext) key hslot]
    | some text => rfl
  · rw [if_neg hslot, if_neg hslot]
    by_cases hinputs : key = providerInputsKey
    · rw [hinputs, h.noInputs (providerInputs_nil_before (hkey hinputs))]
    · exact h.field key hslot hinputs

/-- Merging goes on from a row as it does from the fires it stands for. -/
theorem Stands.same (h : Stands row first rest) (others : List (Fire ν)) :
    Same (mergePendingFires (row :: others)) (mergePendingFires (first :: (rest ++ others))) := by
  obtain ⟨hinputs, hevents, htext, hcount⟩ := h.all others
  refine ⟨fun key => ?_, fun key => ?_, hcount⟩
  · rw [lookup_mergedInput, lookup_mergedInput, hinputs, htext]
    by_cases hkey : key = providerInputsKey ∧ providerInputs (first :: (rest ++ others)) ≠ []
    · rw [if_pos hkey, if_pos hkey]
    · rw [if_neg hkey, if_neg hkey]
      refine h.lookup_withInstruction others fun heq => ?_
      by_contra hne
      exact hkey ⟨heq, hne⟩
  · rw [lookup_mergedEvent, lookup_mergedEvent, hevents]
    by_cases hkey : key = providerEventsKey
    · rw [if_pos hkey, if_pos hkey]
    · rw [if_neg hkey, if_neg hkey]
      cases hnone : providerEvents (first :: (rest ++ others)) with
      | nil => exact h.noEvents (providerEvents_nil_before hnone) key hkey
      | cons record records => rfl

/-- The merged fire stands for all of them, unless its instruction is taken for a provider input. -/
theorem Stands.merge (h : Stands row first rest) (others : List (Fire ν)) (hphantom : ¬ Phantom (first :: (rest ++ others))) :
    Stands (mergePendingFires (row :: others)) first (rest ++ others) := by
  obtain ⟨hinputs, hevents, htext, hcount⟩ := h.all others
  have hlookup : ∀ key, (mergePendingFires (row :: others)).input.lookup key =
      if key = providerInputsKey ∧ providerInputs (first :: (rest ++ others)) ≠ [] then
        some (.arr ((providerInputs (first :: (rest ++ others))).map .obj))
      else (withInstruction first.input (mergeInstructionText ((first :: (rest ++ others)).map (·.input)))).lookup key := by
    intro key
    rw [(h.same others).input key, lookup_mergedInput]
  have hslots : instructionSlots (mergePendingFires (row :: others)).input = instructionSlots first.input :=
    (instructionSlots_congr fun _ hkey => lookup_merged_instructionKeys hkey).trans h.slots
  refine ⟨hslots, merged_instruction.trans htext, ?_, merged_events.trans hevents, fun key hslot hkey => ?_,
    fun hnone key hslot => ?_, fun hnone => ?_, fun hnone key hkey => ?_, hcount⟩
  · by_cases hnone : providerInputs (first :: (rest ++ others)) = []
    · rw [hnone, ← noProviderInput_iff]
      have hfirst : NoProviderInput first.input :=
        noProviderInput_iff.2 (List.flatMap_eq_nil_iff.1 hnone first List.mem_cons_self)
      rcases hfirst with hempty | ⟨nested, hnested, hentries⟩
      · -- the merged input is empty as well, since there is no instruction
        left
        have hnotext : mergeInstructionText ((first :: (rest ++ others)).map (·.input)) = none := by
          by_contra hsome
          exact hphantom (phantom_cons.2 ⟨hempty, hnone, hsome⟩)
        refine eq_nil_of_lookup fun key => ?_
        rw [hlookup, if_neg fun hkey => hkey.2 hnone, hnotext, hempty]
        rfl
      · right
        refine ⟨nested, ?_, hentries⟩
        rw [hlookup, if_neg fun hkey => hkey.2 hnone, PendingFires.lookup_withInstruction,
          if_neg (providerInputsKey_not_slot _)]
        exact hnested
    · exact providerRecordsFrom_arr (fun _ => providerInputs_ne_nil) (by rw [hlookup, if_pos ⟨rfl, hnone⟩])
  · rw [hlookup, if_neg fun hin => hkey hin.1, PendingFires.lookup_withInstruction, if_neg hslot]
  · have hkey : key ≠ providerInputsKey := by
      rintro rfl
      exact providerInputsKey_not_slot _ hslot
    rw [hlookup, if_neg fun hin => hkey hin.1, hnone]
    rfl
  · rw [hlookup, if_neg fun hin => hin.2 hnone, PendingFires.lookup_withInstruction, if_neg (providerInputsKey_not_slot _)]
  · rw [(h.same others).event key, lookup_mergedEvent, if_neg hkey, hnone]
    rfl

/-- An instruction without provider inputs is one more provider input when it is merged again. -/
theorem phantom_records (h : Phantom (first :: rest)) :
    providerRecordsFrom (mergePendingFires (first :: rest)).input providerInputsKey = [(mergePendingFires (first :: rest)).input] := by
  obtain ⟨hempty, hnone, hsome⟩ := phantom_cons.1 h
  have hlookup : (mergePendingFires (first :: rest)).input.lookup providerInputsKey = none := by
    rw [lookup_mergedInput, if_neg fun hin => hin.2 hnone, PendingFires.lookup_withInstruction,
      if_neg (providerInputsKey_not_slot _), hempty]
    rfl
  have hinstruction : instructionOf (mergePendingFires (first :: rest)).input ≠ none := by
    rw [merged_instruction]
    exact hsome
  have hne : (mergePendingFires (first :: rest)).input ≠ [] := by
    intro hnil
    rw [hnil] at hinstruction
    exact hinstruction rfl
  rw [providerRecordsFrom, hlookup]
  simp [hne]

/-- Then it is merged otherwise than all the fires at once. -/
theorem phantom_not_same (h : Phantom (first :: rest)) (others : List (Fire ν)) :
    ¬ Same (mergePendingFires (mergePendingFires (first :: rest) :: others)) (mergePendingFires (first :: (rest ++ others))) := by
  intro hsame
  obtain ⟨hempty, hnone, -⟩ := phantom_cons.1 h
  have hkey := hsame.input providerInputsKey
  have hagain : providerInputs (mergePendingFires (first :: rest) :: others) =
      (mergePendingFires (first :: rest)).input :: providerInputs others := by
    rw [providerInputs, List.flatMap_cons, phantom_records h]
    rfl
  have honce : providerInputs (first :: (rest ++ others)) = providerInputs others := by
    rw [← List.cons_append, providerInputs, List.flatMap_append]
    change providerInputs (first :: rest) ++ _ = _
    rw [hnone]
    rfl
  rw [lookup_mergedInput, lookup_mergedInput, hagain, honce, if_pos ⟨rfl, List.cons_ne_nil _ _⟩] at hkey
  split at hkey
  · have hlength := congrArg List.length (JsonTree.arr.inj (Option.some.inj hkey))
    simp at hlength
  · rw [PendingFires.lookup_withInstruction, if_neg (providerInputsKey_not_slot _), hempty] at hkey
    cases hkey

end Stands

/-! ## Merging what was merged -/

/-- The fire that is merged from some fires is merged on as all of them are, and has what they have. -/
structure MergesOn (fires others : List (Fire ν)) : Prop where
  same : Same (mergePendingFires (mergePendingFires fires :: others)) (mergePendingFires (fires ++ others))
  instruction : instructionOf (mergePendingFires fires).input =
    if fires.filterMap (fun fire => instructionOf fire.input) = [] then none
    else some ((lit "\n\n").intercalate (fires.filterMap fun fire => instructionOf fire.input))
  inputs : providerRecordsFrom (mergePendingFires fires).input providerInputsKey =
    fires.flatMap fun fire => providerRecordsFrom fire.input providerInputsKey
  events : providerRecordsFrom (mergePendingFires fires).event providerEventsKey =
    fires.flatMap fun fire => providerRecordsFrom fire.event providerEventsKey

/-- Merging one fire after the other. -/
def mergeEach (row : Fire ν) (fires : List (Fire ν)) : Fire ν := fires.foldl (fun row fire => mergePendingFires [row, fire]) row

theorem Stands.mergeEach {row first : Fire ν} {rest : List (Fire ν)} (h : Stands row first rest) (others : List (Fire ν))
    (hphantom : ∀ k, ¬ Phantom (first :: (rest ++ others.take k))) :
    Stands (mergeEach row others) first (rest ++ others) := by
  induction others generalizing row rest with
  | nil =>
    rw [List.append_nil]
    exact h
  | cons fire others ih =>
    have hnext : Stands (mergePendingFires [row, fire]) first (rest ++ [fire]) := h.merge [fire] (by simpa using hphantom 1)
    have hrun := ih hnext fun k => by simpa using hphantom (k + 1)
    change Stands (PendingFires.mergeEach (mergePendingFires [row, fire]) others) first _
    simpa using hrun

/-- A fire as it comes. -/
def single (fire : Record ν × Record ν) : Fire ν := ⟨fire.1, fire.2, 1⟩

/-- The row of a merge key after some fires. -/
def queueFires (fires : List (Record ν × Record ν)) : Option (Fire ν) :=
  fires.foldl (fun row fire => some (queueFire row fire.1 fire.2)) none

/-- Draining the row gives what merging all its fires gives. -/
theorem queueFires_drained (fire : Record ν × Record ν) (fires : List (Record ν × Record ν))
    (hphantom : ∀ k, ¬ Phantom (single fire :: (fires.map single).take k)) :
    ∃ row, queueFires (fire :: fires) = some row ∧
      Same (mergePendingFires [row]) (mergePendingFires ((fire :: fires).map single)) := by
  have hqueue : ∀ (fires : List (Record ν × Record ν)) (row : Fire ν),
      fires.foldl (fun row fire => some (queueFire row fire.1 fire.2)) (some row) = some (mergeEach row (fires.map single)) := by
    intro fires
    induction fires with
    | nil => intro row; rfl
    | cons fire fires ih => intro row; exact ih _
  refine ⟨mergeEach (single fire) (fires.map single), hqueue fires (single fire), ?_⟩
  have hrow := (Stands.refl (single fire)).mergeEach (fires.map single) (by simpa using hphantom)
  simpa using hrow.same []

/-- Fires that come one by one are merged like all at once when the queue is drained, unless the fires up to one
of them have an instruction that is taken for a provider input. -/
theorem mergePendingFires_exact (fires others : List (Fire ν)) (hne : fires ≠ []) :
    (MergesOn fires others ↔ ¬ Phantom fires) ∧
      ((∀ k, ¬ Phantom (fires ++ others.take k)) →
        Same (mergePendingFires [mergeEach (mergePendingFires fires) others]) (mergePendingFires (fires ++ others))) := by
  obtain ⟨first, rest, rfl⟩ := List.exists_cons_of_ne_nil hne
  have hstands : ¬ Phantom (first :: rest) → Stands (mergePendingFires (first :: rest)) first rest :=
    fun hphantom => (Stands.refl first).merge rest hphantom
  refine ⟨⟨fun h hphantom => phantom_not_same hphantom others h.same, fun hphantom => ?_⟩, fun hphantom => ?_⟩
  · refine ⟨(hstands hphantom).same others, ?_, (hstands hphantom).inputs, merged_events⟩
    rw [merged_instruction, mergeInstructionText, List.filterMap_map]
    rfl
  · have hfirst : ¬ Phantom (first :: rest) := by simpa using hphantom 0
    have hrow := (hstands hfirst).mergeEach others hphantom
    simpa using hrow.same []

/-- Two fires with instructions, a list of provider inputs and a text that is blank. -/
def noteFires : List (Fire Empty) := [
  ⟨[(lit "instruction", .str (lit " ")), (lit "text", .str (lit "First "))], [(lit "path", .str (lit "a"))], 1⟩,
  ⟨[(lit "text", .str (lit "Second")), (lit "providerInputs", .arr [.null])], [], 1⟩]

theorem mergePendingFires_exact_notes :
    MergesOn noteFires noteFires ∧
      Same (mergePendingFires [mergeEach (mergePendingFires noteFires) noteFires]) (mergePendingFires (noteFires ++ noteFires)) := by
  have hphantom : ∀ others, ¬ Phantom (noteFires ++ others) := fun others h => List.cons_ne_nil _ _ (phantom_cons.1 h).1
  obtain ⟨hiff, hrun⟩ := mergePendingFires_exact noteFires noteFires (List.cons_ne_nil _ _)
  exact ⟨hiff.2 (by simpa using hphantom []), hrun fun k => hphantom _⟩

/-- A fire with nothing, and one with a text and an empty list of provider inputs. -/
def phantomFires : List (Fire Empty) := [⟨[], [], 1⟩, ⟨[(lit "providerInputs", .arr []), (lit "text", .str (lit "Go"))], [], 1⟩]

theorem mergePendingFires_exact_fails :
    ¬ Same (mergePendingFires [mergePendingFires phantomFires]) (mergePendingFires phantomFires) ∧
      providerRecordsFrom (mergePendingFires phantomFires).input providerInputsKey = [[(lit "instruction", .str (lit "Go"))]] ∧
      (phantomFires.flatMap fun fire => providerRecordsFrom fire.input providerInputsKey) = [] := by
  have hphantom : Phantom phantomFires := by
    have htext : mergeInstructionText (phantomFires.map (·.input)) = some (lit "Go") := rfl
    exact phantom_cons.2 ⟨rfl, rfl, htext ▸ Option.some_ne_none _⟩
  exact ⟨phantom_not_same hphantom [], rfl, rfl⟩

end Leitwerk.External.PendingFires
