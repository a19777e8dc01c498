import Leitwerk.Lib.Evicting
import Leitwerk.Lib.Keyed
import Leitwerk.Lib.Runs
/-!
# The cache of resource bundles

`createPiResourceBundleCache` of `bundle-cache.ts`. Entries are kept in the order
of a JavaScript `Map`: a use of an entry takes it out and puts it in again, so
that the least recently used stands first. Workers pin the bundles they still
need. `sha256Digest` is a parameter.

`Put` says how a new bundle finds room, or does not.
-/

namespace Leitwerk.PiResource.BundleCache

/-- `PiResourceBundle`. -/
structure Bundle where
  digest : String
  bytes : List UInt8
  deriving DecidableEq

/-- `CacheEntry`. -/
structure CacheEntry where
  digest : String
  bytes : List UInt8
  pins : Nat
  deriving DecidableEq

/-- The state of a cache, with the bounds it was made with. -/
structure Cache where
  maxEntries : Nat
  maxBytes : Nat
  entries : List CacheEntry := []
  totalBytes : Int := 0
  deriving DecidableEq

/-- `positiveBound` of a whole number. -/
def positiveBound (value : Option Int) (fallback : Int) (name : String) : Except String Nat :=
  let resolved := value.getD fallback
  if resolved < 1 ∨ resolved > 9007199254740991 then .error s!"{name} must be a positive safe integer"
  else .ok resolved.toNat

/-- `createPiResourceBundleCache`. -/
def createPiResourceBundleCache (maxEntries maxBytes : Option Int) : Except String Cache := do
  let maxEntries ← positiveBound maxEntries 64 "maxEntries"
  let maxBytes ← positiveBound maxBytes 268435456 "maxBytes"
  return { maxEntries, maxBytes }

/-! ## The operations -/

/-- `entries.get`. -/
def Cache.find (c : Cache) (digest : String) : Option CacheEntry := Keyed.get (·.digest) digest c.entries

/-- `touch`, with the entry as it is by then. -/
def Cache.touch (c : Cache) (entry : CacheEntry) : Cache :=
  { c with entries := Keyed.delete (·.digest) entry.digest c.entries ++ [entry] }

/-- `oldestUnpinned`. -/
def Cache.oldestUnpinned (c : Cache) (excluding : String) : Option CacheEntry :=
  c.entries.find? fun entry => entry.digest != excluding && entry.pins == 0

/-- `remove`. -/
def Cache.remove (c : Cache) (entry : CacheEntry) : Cache :=
  if (c.find entry.digest).isSome then
    { c with entries := Keyed.delete (·.digest) entry.digest c.entries, totalBytes := c.totalBytes - entry.bytes.length }
  else c

/-- Whether the cache is beyond its bounds. -/
def Cache.exceeds (c : Cache) : Bool := c.entries.length > c.maxEntries || c.totalBytes > c.maxBytes

/-- What is left of the new entry when no room can be made for it. -/
def Cache.giveUp (c : Cache) (newDigest : String) : Cache :=
  match c.find newDigest with
  | some inserted => if inserted.pins = 0 then c.remove inserted else c
  | none => c

/-- The loop of `enforceBounds`, with the entries it may still remove. -/
def Cache.enforceLoop (newDigest : String) : Nat → Cache → Cache × Except String Unit
  | 0, c => (c, .ok ())
  | n + 1, c =>
    if c.exceeds then
      match c.oldestUnpinned newDigest with
      | some candidate => enforceLoop newDigest n (c.remove candidate)
      | none => (c.giveUp newDigest, .error "Pi resource bundle cache capacity is exhausted by pinned bundles")
    else (c, .ok ())

/-- `enforceBounds`. -/
def Cache.enforceBounds (c : Cache) (newDigest : String) : Cache × Except String Unit :=
  c.enforceLoop newDigest (c.entries.length + 1)

/-- A new entry behind the others. -/
def Cache.insert (c : Cache) (entry : CacheEntry) : Cache :=
  { c with entries := c.entries ++ [entry], totalBytes := c.totalBytes + entry.bytes.length }

variable (sha256Digest : List UInt8 → String)

/-- `put`. -/
def Cache.put (c : Cache) (bundle : Bundle) : Cache × Except String Unit :=
  if sha256Digest bundle.bytes ≠ bundle.digest then
    (c, .error "Pi resource bundle digest does not match its bytes")
  else if bundle.bytes.length > c.maxBytes then
    (c, .error s!"Pi resource bundle size {bundle.bytes.length} exceeds cache byte limit {c.maxBytes}")
  else match c.find bundle.digest with
    | some existing => (c.touch existing, .ok ())
    | none => (c.insert ⟨bundle.digest, bundle.bytes, 0⟩).enforceBounds bundle.digest

/-- `get`. -/
def Cache.get (c : Cache) (digest : String) : Cache × Option Bundle :=
  match c.find digest with
  | some entry => (c.touch entry, some ⟨entry.digest, entry.bytes⟩)
  | none => (c, none)

/-- `pin`. -/
def Cache.pin (c : Cache) (digest : String) : Cache × Bool :=
  match c.find digest with
  | some entry => (c.touch { entry with pins := entry.pins + 1 }, true)
  | none => (c, false)

/-- `unpin`. -/
def Cache.unpin (c : Cache) (digest : String) : Cache × Bool :=
  match c.find digest with
  | some entry => if entry.pins = 0 then (c, false) else (c.touch { entry with pins := entry.pins - 1 }, true)
  | none => (c, false)

/-- `gc`: the digests it removed, and their bytes. -/
def Cache.gc (c : Cache) : Cache × List String × Nat :=
  let removed := c.entries.filter (·.pins == 0)
  (removed.foldl Cache.remove c, removed.map (·.digest), removed.foldl (fun n entry => n + entry.bytes.length) 0)

/-- `PiResourceBundleCacheStats`. -/
structure Stats where
  entries : Nat
  bytes : Int
  pinnedEntries : Nat
  pins : Nat
  deriving DecidableEq

/-- `stats`. -/
def Cache.stats (c : Cache) : Stats where
  entries := c.entries.length
  bytes := c.totalBytes
  pinnedEntries := (c.entries.filter (·.pins > 0)).length
  pins := c.entries.foldl (fun total entry => total + entry.pins) 0

/-! ## Runs of the cache -/

inductive Op where
  | put (bundle : Bundle)
  | get (digest : String)
  | has (digest : String)
  | pin (digest : String)
  | unpin (digest : String)
  | gc
  | stats

inductive Reply where
  | put (result : Except String Unit)
  | get (bundle : Option Bundle)
  | flag (value : Bool)
  | gc (removedDigests : List String) (removedBytes : Nat)
  | stats (stats : Stats)

/-- One call: the next state and what it returns. -/
def call (c : Cache) : Op → Cache × Reply
  | .put bundle => ((c.put sha256Digest bundle).1, .put (c.put sha256Digest bundle).2)
  | .get digest => ((c.get digest).1, .get (c.get digest).2)
  | .has digest => (c, .flag (c.find digest).isSome)
  | .pin digest => ((c.pin digest).1, .flag (c.pin digest).2)
  | .unpin digest => ((c.unpin digest).1, .flag (c.unpin digest).2)
  | .gc => (c.gc.1, .gc c.gc.2.1 c.gc.2.2)
  | .stats => (c, .stats c.stats)

def CacheStep : Runs.Step Cache Op Reply := fun c op rs c' => c' = (call sha256Digest c op).1 ∧ rs = [(call sha256Digest c op).2]

/-! ## What a cache holds -/

/-- The bytes of some entries. -/
def storedBytes : List CacheEntry → Nat
  | [] => 0
  | entry :: entries => entry.bytes.length + storedBytes entries

/-- Whether entries are within the bounds of the cache. -/
def Cache.fits (c : Cache) (entries : List CacheEntry) : Bool :=
  entries.length ≤ c.maxEntries && storedBytes entries ≤ c.maxBytes

/-- The entries of the cache that are pinned. -/
def Cache.pinned (c : Cache) : List CacheEntry := c.entries.filter (·.pins > 0)

/-- What every operation keeps. -/
structure Sound (c : Cache) : Prop where
  nodup : (c.entries.map (·.digest)).Nodup
  digests : ∀ entry ∈ c.entries, sha256Digest entry.bytes = entry.digest
  total : c.totalBytes = storedBytes c.entries
  fits : c.fits c.entries = true

/-! ## Entries and their bytes -/

variable {sha256Digest : List UInt8 → String} {c c' : Cache} {e entry : CacheEntry} {l l' : List CacheEntry} {digest : String}

theorem storedBytes_append (l l' : List CacheEntry) : storedBytes (l ++ l') = storedBytes l + storedBytes l' := by
  induction l with
  | nil => simp [storedBytes]
  | cons x l ih =>
    simp only [List.cons_append, storedBytes, ih]
    omega

theorem storedBytes_perm (h : l.Perm l') : storedBytes l = storedBytes l' := by
  induction h with
  | nil => rfl
  | cons x _ ih => simp only [storedBytes, ih]
  | swap x y l =>
    simp only [storedBytes]
    omega
  | trans _ _ ih ih' => exact ih.trans ih'

theorem storedBytes_sublist (h : l'.Sublist l) : storedBytes l' ≤ storedBytes l := by
  induction h with
  | slnil => exact Nat.le_refl _
  | cons x _ ih =>
    simp only [storedBytes]
    omega
  | cons_cons x _ ih =>
    simp only [storedBytes]
    omega

theorem fits_iff : c.fits l = true ↔ l.length ≤ c.maxEntries ∧ storedBytes l ≤ c.maxBytes := by
  simp [Cache.fits]

/-- Fewer entries fit where more do. -/
theorem fits_sublist (c : Cache) (l l' : List CacheEntry) (h : l'.Sublist l) (hf : c.fits l = true) : c.fits l' = true := by
  rw [fits_iff] at hf ⊢
  have h₁ := h.length_le
  have h₂ := storedBytes_sublist h
  omega

/-! ## Using an entry -/

theorem find_iff (hn : (c.entries.map (·.digest)).Nodup) : c.find digest = some e ↔ e ∈ c.entries ∧ e.digest = digest :=
  Keyed.get_iff hn

/-- A use moves an entry to the end. -/
theorem perm_touch (h : c.find digest = some e) (hd : entry.digest = digest) :
    (c.touch entry).entries.Perm (entry :: Keyed.delete (·.digest) digest c.entries) := by
  subst hd
  exact List.perm_append_singleton _ _

theorem find_touch (hn : (c.entries.map (·.digest)).Nodup) (k : String) :
    (c.touch entry).find k = if k = entry.digest then some entry else c.find k := by
  unfold Cache.touch Cache.find
  rw [Keyed.get_append, Keyed.get_delete hn]
  by_cases hk : k = entry.digest
  · subst hk
    simp
  · rw [if_neg hk, if_neg hk, if_neg (Ne.symm hk), Option.or_none]

theorem Sound.touch (hs : Sound sha256Digest c) (hf : c.find digest = some e) (hd : entry.digest = digest)
    (hb : entry.bytes = e.bytes) : Sound sha256Digest (c.touch entry) := by
  have hp := perm_touch hf hd
  have he := (find_iff hs.nodup).1 hf
  have hperm := Keyed.perm_delete hf
  refine ⟨?_, ?_, ?_, ?_⟩
  · have := (hperm.map (·.digest)).nodup_iff.1 hs.nodup
    rw [(hp.map _).nodup_iff, List.map_cons, hd, ← he.2]
    rwa [List.map_cons, ← he.2] at this
  · intro x hx
    rcases List.mem_cons.1 (hp.mem_iff.1 hx) with rfl | hx
    · rw [hb, hd, ← he.2]
      exact hs.digests e he.1
    · exact hs.digests x ((List.eraseP_subset) hx)
  · rw [storedBytes_perm hp]
    refine hs.total.trans ?_
    rw [storedBytes_perm hperm]
    simp only [storedBytes, hb]
  · have hfit := hs.fits
    rw [fits_iff, hperm.length_eq, storedBytes_perm hperm] at hfit
    show c.fits (c.touch entry).entries = true
    rw [fits_iff, hp.length_eq, storedBytes_perm hp]
    simpa [storedBytes, hb] using hfit

/-! ## Removing entries -/

/-- The keys are distinct and the bytes are counted. -/
structure Counted (c : Cache) : Prop where
  nodup : (c.entries.map (·.digest)).Nodup
  total : c.totalBytes = storedBytes c.entries

theorem Sound.counted (hs : Sound sha256Digest c) : Counted c := ⟨hs.nodup, hs.total⟩

theorem remove_eq (hc : Counted c) (hf : c.find e.digest = some e) :
    c.remove e = { c with entries := c.entries.filter (·.digest != e.digest)
                          totalBytes := storedBytes (c.entries.filter (·.digest != e.digest)) } := by
  unfold Cache.remove
  rw [hf, Option.isSome_some, if_pos rfl, ← Keyed.delete_eq_filter hc.nodup, hc.total, storedBytes_perm (Keyed.perm_delete hf)]
  congr 1
  simp only [storedBytes]
  omega

theorem counted_filter (hc : Counted c) (p : CacheEntry → Bool) :
    Counted { c with entries := c.entries.filter p, totalBytes := storedBytes (c.entries.filter p) } :=
  ⟨hc.nodup.sublist (List.filter_sublist.map _), rfl⟩

/-- Removing entries of the cache, one after the other. -/
theorem foldl_remove (hc : Counted c) {removed : List CacheEntry} (hr : ∀ e ∈ removed, c.find e.digest = some e)
    (hn : (removed.map (·.digest)).Nodup) : removed.foldl Cache.remove c =
      { c with entries := c.entries.filter (fun e => !(removed.map (·.digest)).contains e.digest)
               totalBytes := storedBytes (c.entries.filter fun e => !(removed.map (·.digest)).contains e.digest) } := by
  induction removed generalizing c with
  | nil =>
    have h : c.entries.filter (fun _ => true) = c.entries := by simp
    simp only [List.map_nil, List.contains_nil, Bool.not_false, List.foldl_nil, h, ← hc.total]
  | cons x removed ih =>
    rw [List.map_cons, List.nodup_cons] at hn
    have hx := hr x List.mem_cons_self
    rw [List.foldl_cons, remove_eq hc hx, ih (counted_filter hc _) _ hn.2]
    · have : ∀ e : CacheEntry, (e.digest != x.digest && !(removed.map (·.digest)).contains e.digest) =
          !((x :: removed).map (·.digest)).contains e.digest := by
        intro e
        by_cases h : e.digest = x.digest <;> simp [h]
      simp only [List.filter_filter, ← this, Bool.and_comm]
    · -- the others are still there
      intro e he
      have hne : e.digest ≠ x.digest := fun h => hn.1 (h ▸ List.mem_map_of_mem he)
      have := hr e (List.mem_cons_of_mem _ he)
      rw [find_iff hc.nodup] at this
      rw [find_iff (counted_filter hc _).nodup]
      exact ⟨List.mem_filter.2 ⟨this.1, by simpa using hne⟩, rfl⟩

/-- A collection leaves what is pinned. -/
theorem gc_eq (hc : Counted c) : c.gc.1 = { c with entries := c.pinned, totalBytes := storedBytes c.pinned } := by
  have hr : ∀ e ∈ c.entries.filter (·.pins == 0), c.find e.digest = some e := fun e he =>
    (find_iff hc.nodup).2 ⟨(List.mem_filter.1 he).1, rfl⟩
  have hpinned : c.entries.filter (fun e => !((c.entries.filter (·.pins == 0)).map (·.digest)).contains e.digest) =
      c.pinned := by
    apply List.filter_congr
    intro e he
    -- an entry's digest is among the removed ones exactly if it is removed itself
    have : e.digest ∈ (c.entries.filter (·.pins == 0)).map (·.digest) ↔ e.pins = 0 := by
      rw [List.mem_map]
      constructor
      · rintro ⟨x, hx, hd⟩
        obtain ⟨hx, hp⟩ := List.mem_filter.1 hx
        rw [← List.inj_on_of_nodup_map hc.nodup hx he hd]
        simpa using hp
      · intro hp
        exact ⟨e, List.mem_filter.2 ⟨he, by simpa using hp⟩, rfl⟩
    by_cases hp : e.pins = 0
    · have := this.2 hp
      simp [hp, this]
    · have h0 : 0 < e.pins := by omega
      rw [← this] at hp
      rw [decide_eq_true h0, Bool.not_eq_true']
      simpa using hp
  have hrem := foldl_remove hc hr (hc.nodup.sublist (List.filter_sublist.map _))
  rw [hpinned] at hrem
  exact hrem

/-! ## Making room -/

/-- What making room for a new entry does not remove. -/
def keeps (newDigest : String) (entry : CacheEntry) : Bool := entry.digest == newDigest || entry.pins > 0

theorem not_keeps (newDigest : String) :
    (fun entry : CacheEntry => entry.digest != newDigest && entry.pins == 0) = fun entry => !keeps newDigest entry := by
  funext entry
  by_cases h : entry.pins = 0
  · simp [keeps, h, bne]
  · have h0 : 0 < entry.pins := by omega
    simp [keeps, h, h0]

theorem exceeds_eq (hc : Counted c) : c.exceeds = !c.fits c.entries := by
  unfold Cache.exceeds Cache.fits
  rw [hc.total]
  by_cases h₁ : c.entries.length ≤ c.maxEntries <;> by_cases h₂ : storedBytes c.entries ≤ c.maxBytes <;>
    simp [h₁, h₂] <;> omega

/-- How a cache ends up when the entries `r.1` are left, and `r.2` tells whether they fit. -/
def Cache.leave (c : Cache) (newDigest : String) (r : List CacheEntry × Bool) : Cache × Except String Unit :=
  let left : Cache := { c with entries := r.1, totalBytes := storedBytes r.1 }
  if r.2 then (left, .ok ())
  else (left.giveUp newDigest, .error "Pi resource bundle cache capacity is exhausted by pinned bundles")

/-- The loop drops the oldest entries that need not be kept. -/
theorem enforceLoop_eq {newDigest : String} {n : Nat} (hc : Counted c)
    (hn : c.entries.countP (!keeps newDigest ·) < n) :
    c.enforceLoop newDigest n = c.leave newDigest (Evicting.evict (keeps newDigest) c.fits n c.entries) := by
  induction n generalizing c with
  | zero => omega
  | succ n ih =>
    have hself : c = { c with entries := c.entries, totalBytes := storedBytes c.entries } := by
      rw [← hc.total]
    rw [Cache.enforceLoop, Evicting.evict, exceeds_eq hc, Cache.oldestUnpinned, not_keeps]
    cases hf : c.fits c.entries with
    | true =>
      simp only [Bool.not_true, Bool.false_eq_true, if_false, if_true, Cache.leave]
      rw [← hself]
    | false =>
      simp only [Bool.not_false, if_true, Bool.false_eq_true, if_false]
      cases ho : c.entries.find? (fun entry => !keeps newDigest entry) with
      | none =>
        have hall : c.entries.all (keeps newDigest) = true := by
          simpa using ho
        simp only [hall, if_true, Bool.false_eq_true, if_false, Cache.leave]
        rw [← hself]
      | some candidate =>
        obtain ⟨hp, l₁, l₂, hl, hl₁⟩ := List.find?_eq_some_iff_append.1 ho
        have hall : c.entries.all (keeps newDigest) = false := by
          rw [List.all_eq_false]
          exact ⟨candidate, List.mem_of_find?_eq_some ho, by simpa using hp⟩
        -- the candidate is the first that need not be kept, and the only one of its digest
        have hmem : candidate ∈ c.entries := List.mem_of_find?_eq_some ho
        have hfind := (find_iff hc.nodup).2 ⟨hmem, rfl⟩
        have herased : (l₁ ++ candidate :: l₂).eraseP (!keeps newDigest ·) = l₁ ++ l₂ := by
          rw [List.eraseP_append_right _ (by simpa using hl₁)]
          exact congrArg (l₁ ++ ·) (List.eraseP_cons_of_pos (p := (!keeps newDigest ·)) hp)
        have herase : c.entries.filter (·.digest != candidate.digest) = c.entries.eraseP (!keeps newDigest ·) := by
          rw [← Keyed.delete_eq_filter hc.nodup, Keyed.delete]
          have hnd := hc.nodup
          rw [hl] at hnd ⊢
          have hne : ∀ x ∈ l₁, ¬ (x.digest == candidate.digest) = true := by
            intro x hx hd
            rw [List.map_append, List.map_cons, List.nodup_append] at hnd
            exact hnd.2.2 _ (List.mem_map_of_mem hx) _ List.mem_cons_self (by simpa using hd)
          rw [List.eraseP_append_right _ hne, List.eraseP_cons_of_pos (by simp), herased]
        have hcount : (c.entries.eraseP (!keeps newDigest ·)).countP (!keeps newDigest ·) < n := by
          rw [hl, herased]
          rw [hl, List.countP_append, List.countP_cons, if_pos hp] at hn
          rw [List.countP_append]
          omega
        have hc' := counted_filter hc (·.digest != candidate.digest)
        simp only [hall, Bool.false_eq_true, if_false]
        rw [remove_eq hc hfind]
        rw [herase] at hc' ⊢
        exact ih hc' hcount

/-- A new entry that found no room goes again. -/
theorem giveUp_eq {new : CacheEntry} (hn : ((l ++ [new]).map (·.digest)).Nodup) (hp : new.pins = 0) :
    { c with entries := l ++ [new], totalBytes := storedBytes (l ++ [new]) }.giveUp new.digest =
      { c with entries := l, totalBytes := storedBytes l } := by
  have hc : Counted { c with entries := l ++ [new], totalBytes := storedBytes (l ++ [new]) } := ⟨hn, rfl⟩
  have hfind : { c with entries := l ++ [new], totalBytes := storedBytes (l ++ [new]) }.find new.digest = some new :=
    (find_iff hc.nodup).2 ⟨by simp, rfl⟩
  have hgone : (l ++ [new]).filter (·.digest != new.digest) = l := by
    rw [List.filter_append, List.filter_cons_of_neg (by simp), List.filter_nil, List.append_nil, List.filter_eq_self]
    intro e he
    rw [List.map_append, List.nodup_append] at hn
    simpa using hn.2.2 _ (List.mem_map_of_mem he) new.digest (by simp)
  unfold Cache.giveUp
  rw [hfind]
  dsimp only
  rw [if_pos hp, remove_eq hc hfind]
  simp only [hgone]

/-- What a put leaves that found room, and one that did not. -/
inductive Put (c : Cache) (new : CacheEntry) : Cache × Except String Unit → Prop
  | made (k : Nat) (hroom : c.fits (c.pinned ++ [new]) = true)
      (hfits : c.fits (Evicting.dropOldest (·.pins > 0) k c.entries ++ [new]) = true)
      (hleast : ∀ i < k, c.fits (Evicting.dropOldest (·.pins > 0) i c.entries ++ [new]) = false) :
      Put c new ({ c with entries := Evicting.dropOldest (·.pins > 0) k c.entries ++ [new]
                          totalBytes := storedBytes (Evicting.dropOldest (·.pins > 0) k c.entries ++ [new]) }, .ok ())
  | refused (hroom : c.fits (c.pinned ++ [new]) = false) :
      Put c new ({ c with entries := c.pinned, totalBytes := storedBytes c.pinned },
        .error "Pi resource bundle cache capacity is exhausted by pinned bundles")

theorem counted_insert (hc : Counted c) (hf : c.find entry.digest = none) : Counted (c.insert entry) := by
  refine ⟨?_, ?_⟩
  · show ((c.entries ++ [entry]).map (·.digest)).Nodup
    rw [List.map_append, List.nodup_append]
    refine ⟨hc.nodup, List.nodup_singleton _, ?_⟩
    intro x hx y hy
    obtain ⟨e, he, rfl⟩ := List.mem_map.1 hx
    rw [List.map_singleton, List.mem_singleton] at hy
    rw [hy]
    exact Keyed.get_none.1 hf e he
  · show c.totalBytes + (entry.bytes.length : Int) = storedBytes (c.entries ++ [entry])
    rw [hc.total, storedBytes_append]
    simp [storedBytes]

/-- `enforceBounds` after a new entry that nobody pinned yet. -/
theorem enforceBounds_insert {new : CacheEntry} (hc : Counted c) (hf : c.find new.digest = none) (hp : new.pins = 0) :
    Put c new ((c.insert new).enforceBounds new.digest) := by
  have hnone : ∀ e ∈ c.entries, e.digest ≠ new.digest := Keyed.get_none.1 hf
  have hkeep : ∀ e ∈ c.entries, keeps new.digest e = decide (e.pins > 0) := fun e he => by
    simp [keeps, hnone e he]
  have hnew : keeps new.digest new = true := by simp [keeps]
  have hc' := counted_insert hc hf
  have hdrop : ∀ i, Evicting.dropOldest (keeps new.digest) i (c.entries ++ [new]) =
      Evicting.dropOldest (·.pins > 0) i c.entries ++ [new] := fun i => by
    rw [Evicting.dropOldest_concat hnew, Evicting.dropOldest_congr hkeep]
  have hfilter : (c.entries ++ [new]).filter (keeps new.digest) = c.pinned ++ [new] := by
    rw [List.filter_append, List.filter_congr hkeep, List.filter_cons_of_pos hnew]
    rfl
  have hle : (c.entries ++ [new]).countP (!keeps new.digest ·) ≤ (c.entries ++ [new]).length := List.countP_le_length
  have hloop : (c.insert new).enforceBounds new.digest = c.leave new.digest
      (Evicting.evict (keeps new.digest) c.fits ((c.entries ++ [new]).length + 1) (c.entries ++ [new])) :=
    enforceLoop_eq hc' (Nat.lt_succ_of_le hle)
  obtain ⟨k, h⟩ := Evicting.evict_spec (fits_sublist c) (Nat.le_succ_of_le hle)
  rw [hloop]
  generalize Evicting.evict (keeps new.digest) c.fits ((c.entries ++ [new]).length + 1) (c.entries ++ [new]) = r at h
  obtain ⟨left, ok⟩ := r
  have hroom := h.room
  rw [hfilter] at hroom
  cases ok with
  | true =>
    have hleft := h.left
    have hfits := h.fitted
    dsimp only at hleft hfits
    subst hleft
    rw [hdrop] at hfits
    show Put c new ({ c with entries := _, totalBytes := storedBytes _ }, _)
    rw [hdrop]
    refine .made k hroom.symm hfits.symm fun i hi => ?_
    rw [← hdrop]
    exact h.least i hi
  | false =>
    have hleft := h.failed rfl
    have hn := hc'.nodup.sublist ((List.filter_sublist (p := keeps new.digest)).map (·.digest))
    change ((List.filter (keeps new.digest) (c.entries ++ [new])).map (·.digest)).Nodup at hn
    dsimp only at hleft
    rw [hfilter] at hn hleft
    subst hleft
    show Put c new ({ c with entries := _, totalBytes := storedBytes _ }.giveUp new.digest, _)
    rw [giveUp_eq hn hp]
    exact .refused hroom.symm

/-- A put of a good bundle that is not there yet. -/
theorem put_new {b : Bundle} (hs : Sound sha256Digest c) (hd : sha256Digest b.bytes = b.digest)
    (hb : b.bytes.length ≤ c.maxBytes) (hf : c.find b.digest = none) :
    Put c ⟨b.digest, b.bytes, 0⟩ (c.put sha256Digest b) := by
  unfold Cache.put
  rw [if_neg (by simpa using hd), if_neg (by omega), hf]
  let new : CacheEntry := ⟨b.digest, b.bytes, 0⟩
  have hnew : c.find new.digest = none := hf
  exact enforceBounds_insert hs.counted hnew rfl

end Leitwerk.PiResource.BundleCache
