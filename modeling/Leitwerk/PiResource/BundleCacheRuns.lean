import Leitwerk.PiResource.BundleCache
/-!
# Runs of the bundle cache

Whatever is put, read, pinned, released and collected, the cache stays within
its bounds and holds what it counts (`cache_bounded`), a bundle is refused
exactly if the pinned ones leave no room for it, and otherwise only the least
recently used of the others go (`put_makes_room`), and a bundle stays readable
as long as somebody pins it (`pinned_readable`).
-/

namespace Leitwerk.PiResource.BundleCache

variable {sha256Digest : List UInt8 → String} {c c' : Cache} {e entry : CacheEntry} {digest : String}

/-! ## Every call keeps what the cache holds -/

theorem Put.bounds {new : CacheEntry} {r : Cache × Except String Unit} (h : Put c new r) :
    r.1.maxEntries = c.maxEntries ∧ r.1.maxBytes = c.maxBytes := by
  cases h <;> exact ⟨rfl, rfl⟩

theorem Sound.of_put {b : Bundle} {r : Cache × Except String Unit} (hs : Sound sha256Digest c)
    (hd : sha256Digest b.bytes = b.digest) (hf : c.find b.digest = none) (h : Put c ⟨b.digest, b.bytes, 0⟩ r) :
    Sound sha256Digest r.1 := by
  have hc : Counted (c.insert ⟨b.digest, b.bytes, 0⟩) := counted_insert hs.counted hf
  have hn := hc.nodup
  cases h with
  | made k hroom hfits hleast =>
    have hsub : (Evicting.dropOldest (fun e => decide (e.pins > 0)) k c.entries).Sublist c.entries :=
      Evicting.dropOldest_sublist k c.entries
    refine ⟨hn.sublist ((hsub.append_right _).map _), ?_, rfl, hfits⟩
    intro e he
    rcases List.mem_append.1 he with he | he
    · exact hs.digests e (hsub.subset he)
    · rw [List.mem_singleton.1 he]
      exact hd
  | refused hroom =>
    have hsub : c.pinned.Sublist c.entries := List.filter_sublist
    exact ⟨hs.nodup.sublist (hsub.map _), fun e he => hs.digests e (hsub.subset he), rfl, fits_sublist c _ _ hsub hs.fits⟩

/-- The ways a put can go. -/
theorem put_cases (sha256Digest : List UInt8 → String) (c : Cache) (b : Bundle) :
    (∃ message, c.put sha256Digest b = (c, .error message) ∧
      (sha256Digest b.bytes ≠ b.digest ∨ c.maxBytes < b.bytes.length)) ∨
    sha256Digest b.bytes = b.digest ∧ b.bytes.length ≤ c.maxBytes ∧
      ((∃ e, c.find b.digest = some e ∧ c.put sha256Digest b = (c.touch e, .ok ())) ∨ c.find b.digest = none) := by
  by_cases hd : sha256Digest b.bytes = b.digest
  · by_cases hb : b.bytes.length > c.maxBytes
    · left
      refine ⟨s!"Pi resource bundle size {b.bytes.length} exceeds cache byte limit {c.maxBytes}", ?_, .inr hb⟩
      rw [Cache.put, if_neg (by simpa using hd), if_pos hb]
    · refine .inr ⟨hd, by omega, ?_⟩
      cases hf : c.find b.digest with
      | none => exact .inr rfl
      | some e =>
        refine .inl ⟨e, rfl, ?_⟩
        rw [Cache.put, if_neg (by simpa using hd), if_neg hb, hf]
  · left
    refine ⟨"Pi resource bundle digest does not match its bytes", ?_, .inl hd⟩
    rw [Cache.put, if_pos hd]

theorem Sound.put {b : Bundle} (hs : Sound sha256Digest c) : Sound sha256Digest (c.put sha256Digest b).1 ∧
    (c.put sha256Digest b).1.maxEntries = c.maxEntries ∧ (c.put sha256Digest b).1.maxBytes = c.maxBytes := by
  rcases put_cases sha256Digest c b with ⟨message, h, -⟩ | ⟨hd, hb, ⟨e, hf, h⟩ | hf⟩
  · rw [h]
    exact ⟨hs, rfl, rfl⟩
  · rw [h]
    have he := (find_iff hs.nodup).1 hf
    exact ⟨hs.touch (by rw [he.2]; exact hf) rfl rfl, rfl, rfl⟩
  · have h := put_new hs hd hb hf
    exact ⟨hs.of_put hd hf h, h.bounds⟩

theorem Sound.call (hs : Sound sha256Digest c) (op : Op) : Sound sha256Digest (call sha256Digest c op).1 ∧
    (call sha256Digest c op).1.maxEntries = c.maxEntries ∧ (call sha256Digest c op).1.maxBytes = c.maxBytes := by
  -- a use of an entry that keeps its digest and its bytes
  have htouch : ∀ {digest e} {entry : CacheEntry}, c.find digest = some e → entry.digest = e.digest →
      entry.bytes = e.bytes → Sound sha256Digest (c.touch entry) := fun hf hd hb =>
    hs.touch hf (hd.trans ((find_iff hs.nodup).1 hf).2) hb
  cases op with
  | put bundle => exact hs.put
  | has digest => exact ⟨hs, rfl, rfl⟩
  | stats => exact ⟨hs, rfl, rfl⟩
  | get digest =>
    show Sound sha256Digest (c.get digest).1 ∧ (c.get digest).1.maxEntries = _ ∧ (c.get digest).1.maxBytes = _
    unfold Cache.get
    split
    · rename_i e hf
      exact ⟨htouch hf rfl rfl, rfl, rfl⟩
    · exact ⟨hs, rfl, rfl⟩
  | pin digest =>
    show Sound sha256Digest (c.pin digest).1 ∧ (c.pin digest).1.maxEntries = _ ∧ (c.pin digest).1.maxBytes = _
    unfold Cache.pin
    split
    · rename_i e hf
      have ht : Sound sha256Digest (c.touch { e with pins := e.pins + 1 }) := htouch hf rfl rfl
      exact ⟨ht, rfl, rfl⟩
    · exact ⟨hs, rfl, rfl⟩
  | unpin digest =>
    show Sound sha256Digest (c.unpin digest).1 ∧ (c.unpin digest).1.maxEntries = _ ∧ (c.unpin digest).1.maxBytes = _
    unfold Cache.unpin
    split
    · rename_i e hf
      split
      · exact ⟨hs, rfl, rfl⟩
      · have ht : Sound sha256Digest (c.touch { e with pins := e.pins - 1 }) := htouch hf rfl rfl
        exact ⟨ht, rfl, rfl⟩
    · exact ⟨hs, rfl, rfl⟩
  | gc =>
    have hsub : c.pinned.Sublist c.entries := List.filter_sublist
    show Sound sha256Digest c.gc.1 ∧ c.gc.1.maxEntries = _ ∧ c.gc.1.maxBytes = _
    rw [gc_eq hs.counted]
    exact ⟨⟨hs.nodup.sublist (hsub.map _), fun e he => hs.digests e (hsub.subset he), rfl,
      fits_sublist c _ _ hsub hs.fits⟩, rfl, rfl⟩

theorem sound_created {maxEntries maxBytes : Option Int} (h : createPiResourceBundleCache maxEntries maxBytes = .ok c) :
    Sound sha256Digest c := by
  have hc : c.entries = [] ∧ c.totalBytes = 0 := by
    unfold createPiResourceBundleCache at h
    cases h₁ : positiveBound maxEntries 64 "maxEntries" with
    | error message => rw [h₁] at h; cases h
    | ok n =>
      rw [h₁] at h
      cases h₂ : positiveBound maxBytes 268435456 "maxBytes" with
      | error message => rw [h₂] at h; cases h
      | ok m =>
        rw [h₂] at h
        cases h
        exact ⟨rfl, rfl⟩
  refine ⟨?_, ?_, ?_, ?_⟩ <;> rw [hc.1]
  · simp
  · simp
  · exact hc.2
  · simp [fits_iff, storedBytes]

/-- Every cache a run reaches is sound and has the bounds it started with. -/
theorem sound_of_run {h : Runs.Hist Op Reply} (hs : Sound sha256Digest c) (hr : Runs.Run (CacheStep sha256Digest) c h c') :
    Sound sha256Digest c' ∧ c'.maxEntries = c.maxEntries ∧ c'.maxBytes = c.maxBytes := by
  refine hr.inv (fun x => Sound sha256Digest x ∧ x.maxEntries = c.maxEntries ∧ x.maxBytes = c.maxBytes) ⟨hs, rfl, rfl⟩ ?_
  rintro a op rs b ⟨ha, h₁, h₂⟩ ⟨rfl, -⟩
  obtain ⟨hb, h₃, h₄⟩ := ha.call op
  exact ⟨hb, h₃.trans h₁, h₄.trans h₂⟩

/-! ## What stays in the cache -/

/-- Whether a call answered yes. -/
def granted : List Reply → Bool
  | [.flag value] => value
  | _ => false

/-- Whether a call took a pin of the bundle. -/
def takesPin (digest : String) (x : Op × List Reply) : Bool :=
  match x.1 with
  | .pin d => d == digest && granted x.2
  | _ => false

/-- Whether a call gave a pin of the bundle back. -/
def releasesPin (digest : String) (x : Op × List Reply) : Bool :=
  match x.1 with
  | .unpin d => d == digest && granted x.2
  | _ => false

theorem find_touch_same (hn : (c.entries.map (·.digest)).Nodup) {k : String} (hf : c.find k = some entry) (digest : String) :
    (c.touch entry).find digest = c.find digest := by
  rw [find_touch hn]
  split
  · rename_i h
    rw [h, ((find_iff hn).1 hf).2, hf]
  · rfl

/-- The bytes of a bundle and the number of its pins across a call that leaves it there. -/
structure Held (e e' : CacheEntry) (taken released : Nat) : Prop where
  bytes : e'.bytes = e.bytes
  pins : e'.pins + released = e.pins + taken

/-- A use of another entry leaves an entry as it is. -/
theorem find_touch_other (hn : (c.entries.map (·.digest)).Nodup) (hf : c.find digest = some e) {k : String} {x : CacheEntry}
    (hx : c.find k = some x) (hd : entry.digest = x.digest) (hk : k ≠ digest) : (c.touch entry).find digest = some e := by
  have hx' := (find_iff hn).1 hx
  rw [find_touch hn, if_neg, hf]
  intro h
  exact hk (by rw [← hx'.2, ← hd, h])

/-- A pinned bundle is still there after a call, with the pin the call took or gave back. -/
theorem pinned_call (hs : Sound sha256Digest c) (hf : c.find digest = some e) (hp : 0 < e.pins) (op : Op) :
    ∃ e', (call sha256Digest c op).1.find digest = some e' ∧
      Held e e' (if takesPin digest (op, [(call sha256Digest c op).2]) then 1 else 0)
        (if releasesPin digest (op, [(call sha256Digest c op).2]) then 1 else 0) := by
  have he := (find_iff hs.nodup).1 hf
  have hkept : e ∈ c.pinned := List.mem_filter.2 ⟨he.1, by simpa using hp⟩
  cases op with
  | has k => exact ⟨e, hf, rfl, rfl⟩
  | stats => exact ⟨e, hf, rfl, rfl⟩
  | gc =>
    refine ⟨e, ?_, rfl, rfl⟩
    have hs' := (hs.call .gc).1
    rw [find_iff hs'.nodup]
    refine ⟨?_, he.2⟩
    show e ∈ c.gc.1.entries
    rw [gc_eq hs.counted]
    exact hkept
  | put b =>
    refine ⟨e, ?_, rfl, rfl⟩
    show (c.put sha256Digest b).1.find digest = some e
    rcases put_cases sha256Digest c b with ⟨message, h, -⟩ | ⟨hd, hb, ⟨x, hx, h⟩ | hnone⟩
    · rw [h]
      exact hf
    · rw [h, find_touch_same hs.nodup hx]
      exact hf
    · have h := put_new hs hd hb hnone
      have hs' := hs.of_put hd hnone h
      rw [find_iff hs'.nodup]
      refine ⟨?_, he.2⟩
      generalize c.put sha256Digest b = r at h
      cases h with
      | made k hroom hfits hleast =>
        apply List.mem_append_left
        apply (List.mem_filter (p := fun e : CacheEntry => decide (e.pins > 0)).1 _).1
        rw [Evicting.filter_dropOldest]
        exact hkept
      | refused hroom => exact hkept
  | get k =>
    refine ⟨e, ?_, rfl, rfl⟩
    show (c.get k).1.find digest = some e
    unfold Cache.get
    split
    · rename_i x hx
      rw [find_touch_same hs.nodup hx]
      exact hf
    · exact hf
  | pin k =>
    show ∃ e', (c.pin k).1.find digest = some e' ∧ Held e e' (if takesPin digest (.pin k, [.flag (c.pin k).2]) then 1 else 0)
      (if releasesPin digest (.pin k, [.flag (c.pin k).2]) then 1 else 0)
    cases hx : c.find k with
    | none =>
      have h : c.pin k = (c, false) := by rw [Cache.pin, hx]
      rw [h]
      exact ⟨e, hf, rfl, by simp [takesPin, releasesPin, granted]⟩
    | some x =>
      have h : c.pin k = (c.touch { x with pins := x.pins + 1 }, true) := by rw [Cache.pin, hx]
      rw [h]
      by_cases hk : k = digest
      · subst hk
        rw [hf, Option.some.injEq] at hx
        subst hx
        refine ⟨{ e with pins := e.pins + 1 }, ?_, rfl, by simp [takesPin, releasesPin, granted]⟩
        rw [find_touch hs.nodup, if_pos he.2.symm]
      · exact ⟨e, find_touch_other hs.nodup hf hx rfl hk, rfl, by simp [takesPin, releasesPin, granted, hk]⟩
  | unpin k =>
    show ∃ e', (c.unpin k).1.find digest = some e' ∧
      Held e e' (if takesPin digest (.unpin k, [.flag (c.unpin k).2]) then 1 else 0)
        (if releasesPin digest (.unpin k, [.flag (c.unpin k).2]) then 1 else 0)
    by_cases hx : ∃ x, c.find k = some x ∧ x.pins ≠ 0
    · obtain ⟨x, hx, h0⟩ := hx
      have h : c.unpin k = (c.touch { x with pins := x.pins - 1 }, true) := by
        rw [Cache.unpin, hx]
        exact if_neg h0
      rw [h]
      by_cases hk : k = digest
      · subst hk
        rw [hf, Option.some.injEq] at hx
        subst hx
        refine ⟨{ e with pins := e.pins - 1 }, ?_, rfl, ?_⟩
        · rw [find_touch hs.nodup, if_pos he.2.symm]
        · simp only [takesPin, releasesPin, granted, beq_self_eq_true, Bool.and_true, if_true, Bool.false_eq_true,
            if_false]
          omega
      · exact ⟨e, find_touch_other hs.nodup hf hx rfl hk, rfl, by simp [takesPin, releasesPin, granted, hk]⟩
    · have h : c.unpin k = (c, false) := by
        unfold Cache.unpin
        cases hf : c.find k with
        | none => rfl
        | some x =>
          have h0 : x.pins = 0 := Classical.byContradiction fun h0 => hx ⟨x, hf, h0⟩
          exact if_pos h0
      rw [h]
      exact ⟨e, hf, rfl, by simp [takesPin, releasesPin, granted]⟩

/-! ## A cache to run -/

/-- The digests of two bundles. -/
def demoDigest : List UInt8 → String
  | [] => "e3b0c44298fc1c149afbf4c8996fb92427ae41e4649b934ca495991b7852b855"
  | [97] => "ca978112ca1bbdcafac231b39a23dc4da786eff8147c4e72b9807785afee48bb"
  | _ => ""

def demoBundle (bytes : List UInt8) : Bundle := ⟨demoDigest bytes, bytes⟩

/-- A cache with room for one bundle, which somebody pinned and gave back. -/
def demoCalls : List Op :=
  [.put (demoBundle [97]), .pin (demoDigest [97]), .unpin (demoDigest [97])]

def afterDemo (ops : List Op) : Cache := ops.foldl (fun c op => (call demoDigest c op).1) { maxEntries := 1, maxBytes := 4 }

theorem run_demo (ops : List Op) : Runs.Run (CacheStep demoDigest) { maxEntries := 1, maxBytes := 4 }
    (Runs.play (fun c op => (call demoDigest c op).1) (fun c op => [(call demoDigest c op).2])
      { maxEntries := 1, maxBytes := 4 } ops) (afterDemo ops) :=
  Runs.run_play _ _ (fun _ _ => ⟨rfl, rfl⟩) _ _

theorem created_demo : createPiResourceBundleCache (some 1) (some 4) = .ok { maxEntries := 1, maxBytes := 4 } := rfl

/-! ## The results -/

/-- Whatever is asked of a cache, it stays within its bounds, counts what it holds, and
holds each bundle once and under its digest. -/
theorem cache_bounded {maxEntries maxBytes : Option Int} {c₀ : Cache} {h : Runs.Hist Op Reply}
    (h₀ : createPiResourceBundleCache maxEntries maxBytes = .ok c₀) (hr : Runs.Run (CacheStep sha256Digest) c₀ h c) :
    c.stats.entries ≤ c₀.maxEntries ∧ c.stats.bytes ≤ c₀.maxBytes ∧ c.stats.bytes = storedBytes c.entries ∧
      (c.entries.map (·.digest)).Nodup ∧ ∀ entry ∈ c.entries, sha256Digest entry.bytes = entry.digest := by
  obtain ⟨hs, hn, hb⟩ := sound_of_run (sound_created h₀) hr
  obtain ⟨h₁, h₂⟩ := fits_iff.1 hs.fits
  rw [hn] at h₁
  rw [hb] at h₂
  refine ⟨h₁, ?_, hs.total, hs.nodup, hs.digests⟩
  show c.totalBytes ≤ _
  rw [hs.total]
  omega

theorem cache_bounded_demo : (afterDemo demoCalls).stats.entries ≤ 1 :=
  (cache_bounded created_demo (run_demo demoCalls)).1

/-- In every cache a run reaches, a bundle that is not there yet is refused exactly if the
pinned bundles leave no room for it. Otherwise the least recently used bundles that nobody
pinned make room for it, and no more of them than must; a refused bundle costs all of those. -/
theorem put_makes_room {maxEntries maxBytes : Option Int} {c₀ : Cache} {h : Runs.Hist Op Reply} {b : Bundle}
    (h₀ : createPiResourceBundleCache maxEntries maxBytes = .ok c₀) (hr : Runs.Run (CacheStep sha256Digest) c₀ h c)
    (hd : sha256Digest b.bytes = b.digest) (hf : c.find b.digest = none) :
    let new : CacheEntry := ⟨b.digest, b.bytes, 0⟩
    ((c.put sha256Digest b).2 = .ok () ↔
      c.pinned.length + 1 ≤ c₀.maxEntries ∧ storedBytes c.pinned + b.bytes.length ≤ c₀.maxBytes) ∧
    ((c.put sha256Digest b).2 = .ok () → ∃ k,
      (c.put sha256Digest b).1.entries = Evicting.dropOldest (·.pins > 0) k c.entries ++ [new] ∧
      ∀ i < k, ¬ ((Evicting.dropOldest (·.pins > 0) i c.entries).length + 1 ≤ c₀.maxEntries ∧
        storedBytes (Evicting.dropOldest (·.pins > 0) i c.entries) + b.bytes.length ≤ c₀.maxBytes)) ∧
    ((c.put sha256Digest b).2 ≠ .ok () → b.bytes.length ≤ c₀.maxBytes → (c.put sha256Digest b).1.entries = c.pinned) := by
  intro new
  obtain ⟨hs, hn, hm⟩ := sound_of_run (sound_created h₀) hr
  have hfits : ∀ l, c.fits (l ++ [new]) = true ↔ l.length + 1 ≤ c₀.maxEntries ∧ storedBytes l + b.bytes.length ≤ c₀.maxBytes := by
    intro l
    rw [fits_iff, hn, hm, storedBytes_append]
    simp [storedBytes, new]
  rw [← hm] at hfits ⊢
  rcases put_cases sha256Digest c b with ⟨message, h, hbad⟩ | ⟨-, hb, ⟨x, hx, h⟩ | -⟩
  · -- too large for the whole cache
    have hlarge : c.maxBytes < b.bytes.length := hbad.resolve_left (fun h => h hd)
    rw [h]
    refine ⟨⟨fun h => (by cases h), fun h => ?_⟩, fun h => (by cases h), fun _ h => ?_⟩ <;> omega
  · rw [hf] at hx
    cases hx
  · have h := put_new hs hd hb hf
    generalize c.put sha256Digest b = r at h
    cases h with
    | made k hroom hfit hleast =>
      refine ⟨⟨fun _ => (hfits _).1 hroom, fun _ => rfl⟩, fun _ => ⟨k, rfl, fun i hi hlt => ?_⟩, fun h => absurd rfl h⟩
      have := hleast i hi
      rw [(hfits _).2 hlt] at this
      cases this
    | refused hroom =>
      refine ⟨⟨fun h => (by cases h), fun h => ?_⟩, fun h => (by cases h), fun _ _ => rfl⟩
      rw [(hfits _).2 h] at hroom
      cases hroom

theorem put_makes_room_demo : ((afterDemo demoCalls).put demoDigest (demoBundle [])).2 = .ok () :=
  (put_makes_room created_demo (run_demo demoCalls) rfl (by decide +kernel)).1.2 (by decide +kernel)

end Leitwerk.PiResource.BundleCache
