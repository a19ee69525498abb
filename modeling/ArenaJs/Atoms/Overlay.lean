import ArenaJs.Atoms.Prefreeze

/-!
# The overlay of a request

After the freeze new atoms are numbered in the request's overlay, an array that grows by doubling
and threads its free list through its unused slots. Nothing is ever given back, so the slots are
used in order: `OverlayOk` describes the array by its size and the number of atoms alone. It gives
the free list (`OverlayOk.freeList`), and the number the next atom gets (`OverlayOk.takeSlot`).
-/

namespace ArenaJs.Atoms

/-- The link of a free slot of the overlay. -/
def Request.freeNext (r : Request) (k : Nat) : Option Nat := r.overlay[k]?.bind Slot.next?

/-- The overlay: a reserved slot, the atoms in the order they were made, then the free slots, each
linked to the next. -/
structure OverlayOk (r : Request) : Prop where
  count : r.overlay = [] ∧ r.overlayCount = 0 ∨ r.overlayCount < r.overlay.length
  first : r.overlayFreeIndex =
    if r.overlayCount + 1 < r.overlay.length then r.overlayCount + 1 else 0
  null : r.overlay ≠ [] → r.overlay[0]? = some .null
  used : ∀ {k}, 0 < k → k ≤ r.overlayCount → ∃ p, r.overlay[k]? = some (.atom p)
  free : ∀ {k}, r.overlayCount < k → k < r.overlay.length →
    r.overlay[k]? = some (.free (if k = r.overlay.length - 1 then 0 else k + 1))

section
variable {rt : Runtime} {r r' : Request} {p : StrPtr} {a : Allocs}

/-- The free list goes through the unused slots in order. -/
theorem OverlayOk.freeList (h : OverlayOk r) : Chain r.freeNext r.overlayFreeIndex
    (List.range' (r.overlayCount + 1) (r.overlay.length - (r.overlayCount + 1))) := by
  rw [h.first]
  refine Chain.range r.freeNext (Nat.succ_pos _) fun k hk hks => ?_
  rw [Request.freeNext, h.free (by omega) hks]
  rfl

/-- A slot of the overlay is used exactly if it is one of the first, the reserved one apart. -/
theorem OverlayOk.used_iff (h : OverlayOk r) {k : Nat} (hk : k < r.overlay.length) :
    (∃ p, r.overlay[k]? = some (.atom p)) ↔ 0 < k ∧ k ≤ r.overlayCount := by
  constructor
  · rintro ⟨p, hp⟩
    refine ⟨Nat.pos_of_ne_zero fun h0 => ?_, Nat.le_of_not_lt fun hlt => ?_⟩
    · rw [h0, h.null fun hnil => by simp [hnil] at hk] at hp
      cases hp
    · rw [h.free hlt hk] at hp
      cases hp
  · rintro ⟨h0, hle⟩
    exact h.used h0 hle

/-- The empty overlay of a fresh request. -/
theorem OverlayOk.fresh (hov : r.overlay = []) (hcount : r.overlayCount = 0)
    (hfree : r.overlayFreeIndex = 0) : OverlayOk r where
  count := .inl ⟨hov, hcount⟩
  first := by rw [hfree, hov, hcount]; rfl
  null hne := absurd hov hne
  used h0 hle := by omega
  free _ hlt := by rw [hov] at hlt; cases hlt

theorem OverlayOk.congr (h : OverlayOk r) (hov : r'.overlay = r.overlay)
    (hcount : r'.overlayCount = r.overlayCount) (hfree : r'.overlayFreeIndex = r.overlayFreeIndex) :
    OverlayOk r' := by
  refine ⟨?_, ?_, ?_, ?_, ?_⟩
  · rw [hov, hcount]; exact h.count
  · rw [hov, hcount, hfree]; exact h.first
  · rw [hov]; exact h.null
  · rw [hov, hcount]; exact h.used
  · rw [hov, hcount]; exact h.free

/-! ## Growth -/

/-- An overlay with room: more of the same, longer. -/
structure Roomy (r r' : Request) : Prop where
  strs : r'.strs = r.strs
  overlayBase : r'.overlayBase = r.overlayBase
  count : r'.overlayCount = r.overlayCount
  hash : r'.hashOverlay = r.hashOverlay
  slot : r'.slot = r.slot
  index : r'.overlayFreeIndex = r.overlayCount + 1
  room : r.overlayCount + 1 < r'.overlay.length

/-- The overlay grows by free slots. -/
theorem OverlayOk.grow (h : OverlayOk r) (old : List Slot) (size : Nat)
    (hfull : r.overlayCount + 1 = old.length) (hsize : old.length < size)
    (hold : ∀ k, k < old.length → old[k]? = if k = 0 then some .null else r.overlay[k]?)
    (hslot : ∀ k, k < old.length → old[k]?.bind Slot.ptr? = r.overlay[k]?.bind Slot.ptr?)
    (hlen : r.overlay.length ≤ old.length)
    (hov : r' = { r with
      overlay := old ++ freeSlots old.length size, overlayFreeIndex := old.length }) :
    OverlayOk r' ∧ Roomy r r' := by
  subst hov
  have hlength : (old ++ freeSlots old.length size).length = size := by
    simp [freeSlots]
    omega
  refine ⟨⟨.inr ?_, ?_, fun _ => ?_, fun {k} h0 hle => ?_, fun {k} hlt hks => ?_⟩,
    ⟨rfl, rfl, rfl, rfl, ?_, hfull.symm, by simp only [hlength]; omega⟩⟩
  · simp only [hlength]; omega
  · simp [hlength, hfull, if_pos hsize]
  · simp only [grown_getElem? _ hsize]
    rw [if_pos (by omega), hold 0 (by omega), if_pos rfl]
  · simp only [grown_getElem? _ hsize] at h0 hle ⊢
    rw [if_pos (by omega), hold k (by omega), if_neg (by omega)]
    exact h.used h0 hle
  · simp only [hlength] at hlt hks ⊢
    rw [grown_getElem? _ hsize, if_neg (by omega), if_pos hks]
  · funext i
    simp only [Request.slot, grown_getElem? _ hsize]
    by_cases hi : i < r.overlayBase
    · rw [if_pos hi, if_pos hi]
    rw [if_neg hi, if_neg hi]
    by_cases hk : i - r.overlayBase < old.length
    · rw [if_pos hk, hslot _ hk]
    · have hnone : r.overlay[i - r.overlayBase]? = none := List.getElem?_eq_none (by omega)
      rw [if_neg hk, hnone]
      split <;> rfl

/-- `js_atom_overlay_ensure_slot`: with fewer than 2^31 slots it fails only if no slot is free and
there is no memory for more. -/
theorem OverlayOk.ensureSlot (h : OverlayOk rt.req) (hlt : rt.req.overlayCount + 1 < 2 ^ 31) :
    (rt.req.overlayFreeIndex = 0 ∧ a.slots = false) ∧ rt.overlayEnsureSlot a = .error rt ∨
      ¬ (rt.req.overlayFreeIndex = 0 ∧ a.slots = false) ∧
      ∃ r', rt.overlayEnsureSlot a = .ok { rt with req := r' } ∧ OverlayOk r' ∧
        Roomy rt.req r' := by
  have hcount := h.count
  have hfirst := h.first
  by_cases hroom : rt.req.overlayCount + 1 < rt.req.overlay.length
  · rw [if_pos hroom] at hfirst
    refine .inr ⟨by omega, rt.req, ?_, h, rfl, rfl, rfl, rfl, rfl, hfirst, hroom⟩
    rw [Runtime.overlayEnsureSlot, if_pos (by omega)]
  · rw [if_neg hroom] at hfirst
    rw [Runtime.overlayEnsureSlot, if_neg (by simp [hfirst])]
    by_cases hempty : rt.req.overlay = []
    · simp only [hempty, List.length_nil, if_true, overlayInitial]
      rw [if_neg (by decide)]
      by_cases ha : a.slots = true
      · obtain ⟨-, h0⟩ := hcount.resolve_right (by simp [hempty])
        refine .inr ⟨by simp [ha], _, by rw [if_neg (by simp [ha])], ?_⟩
        refine h.grow [.null] 64 (by simp [h0]) (by simp) (fun k hk => ?_) (fun k hk => ?_)
          (by simp [hempty]) rfl
        · rw [Nat.lt_one_iff.1 hk]
          rfl
        · rw [Nat.lt_one_iff.1 hk, hempty]
          rfl
      · exact .inl ⟨⟨hfirst, by simpa using ha⟩, by rw [if_pos (by simp [ha])]⟩
    · have hpos := List.length_pos_iff.2 hempty
      have hfull : rt.req.overlayCount + 1 = rt.req.overlay.length := by
        rcases hcount with ⟨hnil, -⟩ | hc
        · exact absurd hnil hempty
        · omega
      have hmod : rt.req.overlay.length * 2 % 2 ^ 32 = rt.req.overlay.length * 2 :=
        Nat.mod_eq_of_lt (by omega)
      simp only [if_neg (Nat.ne_of_gt hpos), hmod]
      rw [if_neg (by omega)]
      by_cases ha : a.slots = true
      · refine .inr ⟨by simp [ha], _, by rw [if_neg (by simp [ha])], ?_⟩
        refine h.grow _ _ hfull (by omega) (fun k hk => ?_) (fun _ _ => rfl) (Nat.le_refl _) rfl
        split
        · next h0 => rw [h0, h.null hempty]
        · rfl
      · exact .inl ⟨⟨hfirst, by simpa using ha⟩, by rw [if_pos (by simp [ha])]⟩

/-- An overlay whose next slot was given to `p`. -/
structure Taken (r r' : Request) (p : StrPtr) : Prop where
  strs : r'.strs = r.strs
  overlayBase : r'.overlayBase = r.overlayBase
  count : r'.overlayCount = r.overlayCount + 1
  hash : r'.hashOverlay = r.hashOverlay
  slot : r'.slot = Function.update r.slot (r.overlayBase + (r.overlayCount + 1)) (some p)
  shape : OverlayOk r'

/-- Giving the next slot of a roomy overlay. -/
theorem OverlayOk.take (h : OverlayOk r) (hroom : r.overlayCount + 1 < r.overlay.length)
    (p : StrPtr) :
    Taken r { r with
      overlay := r.overlay.set (r.overlayCount + 1) (.atom p)
      overlayFreeIndex := if r.overlayCount + 1 = r.overlay.length - 1 then 0 else
        r.overlayCount + 2
      overlayCount := r.overlayCount + 1 } p := by
  refine ⟨rfl, rfl, rfl, rfl, ?_, .inr ?_, ?_, fun _ => ?_, fun {k} h0 hle => ?_,
    fun {k} hlt hks => ?_⟩
  · funext i
    simp only [Request.slot]
    by_cases hi : i = r.overlayBase + (r.overlayCount + 1)
    · subst hi
      rw [Function.update_self, if_neg (by omega), Nat.add_sub_cancel_left,
        List.getElem?_set_self hroom]
      rfl
    · rw [Function.update_of_ne hi, Request.slot]
      by_cases hb : i < r.overlayBase
      · rw [if_pos hb, if_pos hb]
      · rw [if_neg hb, if_neg hb, List.getElem?_set_ne (by omega)]
  · simpa using hroom
  · simp only [List.length_set]
    split <;> split <;> omega
  · rw [List.getElem?_set_ne (by omega)]
    exact h.null fun hnil => by simp [hnil] at hroom
  · simp only at hle
    by_cases hk : k = r.overlayCount + 1
    · exact ⟨p, by rw [hk, List.getElem?_set_self hroom]⟩
    · rw [List.getElem?_set_ne (Ne.symm hk)]
      exact h.used h0 (by omega)
  · simp only [List.length_set] at hlt hks ⊢
    rw [List.getElem?_set_ne (by omega)]
    exact h.free (by omega) hks

/-- Taking a slot after the freeze: the number is the next one above the base. -/
theorem OverlayOk.takeSlot (h : OverlayOk rt.req) (harena : rt.isArena = true)
    (hcount : rt.req.overlayCount + 1 < 2 ^ 31)
    (hlt : rt.req.overlayBase + (rt.req.overlayCount + 1) < 2 ^ 32) :
    (rt.req.overlayFreeIndex = 0 ∧ a.slots = false) ∧ rt.takeSlot p a = some (.error rt) ∨
      ¬ (rt.req.overlayFreeIndex = 0 ∧ a.slots = false) ∧ ∃ r', rt.takeSlot p a = some
        (.ok (rt.req.overlayBase + (rt.req.overlayCount + 1),
        { rt with req := r' })) ∧ Taken rt.req r' p := by
  unfold Runtime.takeSlot
  rw [if_pos harena]
  rcases h.ensureSlot (a := a) hcount with ⟨hfull, herr⟩ | ⟨hroom, r1, hok, h1, hr⟩
  · exact .inl ⟨hfull, by rw [herr]⟩
  · have htaken := h1.take (by rw [hr.count]; exact hr.room) p
    rw [hr.count] at htaken
    refine .inr ⟨hroom, _, ?_, ⟨htaken.strs.trans hr.strs, htaken.overlayBase.trans hr.overlayBase,
      htaken.count.trans (by rw [hr.count]), htaken.hash.trans hr.hash,
      by rw [htaken.slot, hr.slot, hr.overlayBase, hr.count], htaken.shape⟩⟩
    have hfree := h1.free (k := rt.req.overlayCount + 1) (by rw [hr.count]; omega) hr.room
    rw [hok]
    simp only [hr.index, hfree, Option.bind_some, Slot.next?, Option.map_some, hr.overlayBase,
      hr.count]
    rw [Nat.mod_eq_of_lt (by omega)]

end

end ArenaJs.Atoms
