import ArenaJs.Alloc.Arena

/-!
# A space that meets the contract

The simplest space with the interface of dlmalloc's: it bumps a pointer through the region it was
created over, never reuses memory and never asks for more. It is no model of dlmalloc; it shows that
`Mspace.Contract` can be met (`BumpSpace.contract`) and stands in for dlmalloc where a run is
evaluated.
-/

namespace ArenaJs

/-- The region, how far it is used, and the blocks handed out, newest first. -/
structure BumpSpace where
  lo : Nat
  top : Nat
  limit : Nat
  blocks : List (Nat × Nat)

namespace BumpSpace

variable (st : BumpSpace) (n : Nat)

/-- The usable size of a block of `n` bytes. -/
def bodySize : Nat := (n / 16 + 1) * 16

/-- The block of `n` bytes that comes next, with `keep` the older blocks. -/
def place (keep : List (Nat × Nat)) : Option (Nat × BumpSpace) :=
  let p := st.top + 16
  if p + bodySize n ≤ st.limit then
    some (p, { st with top := p + bodySize n, blocks := (p, bodySize n) :: keep })
  else none

/-- A call that places a block of `n` bytes and then runs `eff` on it. -/
def placeCall (keep : List (Nat × Nat)) (eff : Nat → Mem → Mem) :
    MsCall BumpSpace :=
  match st.place n keep with
  | none => .done none st id
  | some (p, st') => .done (some p) st' (eff p)

/-- The blocks other than the one at `p`. -/
def drop (p : Nat) : List (Nat × Nat) := st.blocks.filter fun b => b.1 ≠ p

/-- The usable size of the block at `p`. -/
def usable (p : Nat) : Nat :=
  ((st.blocks.find? fun b => b.1 = p).map Prod.snd).getD 0

/-- The space's interface. -/
def mspace : Mspace BumpSpace where
  create lo len := (⟨lo, lo, lo + len, []⟩, id)
  malloc st n := st.placeCall n st.blocks fun _ => id
  calloc st c n := st.placeCall (c * n) st.blocks fun p m => m.memset p 0 (c * n)
  realloc st p n := st.placeCall n (st.drop p) fun q m => m.memcpy q p (min (st.usable p) n)
  free st p := ({ st with blocks := st.drop p }, id)
  usable := usable

/-- The blocks lie in the used part of the region, each past the end of the older ones. -/
structure Inv (st : BumpSpace) (segs : List Span) (L : Set (Nat × Nat)) : Prop where
  seg : ⟨st.lo, st.limit⟩ ∈ segs
  lo_le : st.lo ≤ st.top
  top_le : st.top ≤ st.limit
  top_dvd : 16 ∣ st.top
  mem_iff : ∀ b, b ∈ L ↔ b ∈ st.blocks
  ok : ∀ b ∈ st.blocks, 16 ∣ b.1 ∧ 0 < b.2 ∧ st.lo + 8 ≤ b.1 ∧ b.1 + b.2 ≤ st.top
  apart : st.blocks.Pairwise fun b c => c.1 + c.2 + 8 ≤ b.1

variable {st : BumpSpace} {segs : List Span} {L : Set (Nat × Nat)}

theorem le_bodySize : n ≤ bodySize n ∧ 0 < bodySize n ∧ 16 ∣ bodySize n := by
  unfold bodySize
  omega

/-- A pointer names one block. -/
theorem Inv.eq_of_ptr (h : st.Inv segs L) {b c : Nat × Nat} (hb : b ∈ st.blocks)
    (hc : c ∈ st.blocks) (he : b.1 = c.1) : b = c := by
  by_contra hne
  have hsymm : st.blocks.Pairwise fun b c => b.1 ≠ c.1 :=
    h.apart.imp fun {b c} hbc => by omega
  have : Std.Symm fun b c : Nat × Nat => b.1 ≠ c.1 := ⟨fun _ _ h => h.symm⟩
  exact hsymm.forall hb hc hne he

theorem Inv.usable_eq (h : st.Inv segs L) {b : Nat × Nat} (hb : b ∈ L) : st.usable b.1 = b.2 := by
  have hb' := (h.mem_iff b).1 hb
  unfold usable
  rw [find?_of_unique hb' (by simp) fun c hc he => h.eq_of_ptr hc hb' (by simpa using he)]
  rfl

/-- Dropping a block keeps the invariant. -/
theorem Inv.drop (h : st.Inv segs L) (p : Nat) :
    Inv { st with blocks := st.drop p } segs (msRemove L p) := by
  refine ⟨h.seg, h.lo_le, h.top_le, h.top_dvd, fun b => ?_, ?_, h.apart.sublist List.filter_sublist⟩
  · simp [msRemove, BumpSpace.drop, h.mem_iff]
  · exact fun b hb => h.ok b (List.mem_filter.1 hb).1

/-- A placed block is past all others and inside the region. -/
theorem Inv.place {keep : List (Nat × Nat)} (h : Inv { st with blocks := keep } segs L) {n p : Nat}
    {st' : BumpSpace} (he : st.place n keep = some (p, st')) :
    st'.Inv segs (insert (p, bodySize n) L) ∧ (∀ b ∈ L, b.1 + b.2 + 8 ≤ p) ∧
      st.lo ≤ p ∧ p + bodySize n ≤ st.limit := by
  have hn := le_bodySize n
  have hlo := h.lo_le
  have hdvd := h.top_dvd
  simp only [BumpSpace.place] at he
  split at he
  · next hfit =>
    cases he
    have hpast : ∀ b ∈ keep, b.1 + b.2 + 8 ≤ st.top + 16 := fun b hb => by
      have := (h.ok b hb).2.2.2
      simp only at this
      omega
    simp only at hlo hdvd
    refine ⟨⟨h.seg, ?_, hfit, ?_, fun b => ?_, ?_, List.pairwise_cons.2 ⟨hpast, h.apart⟩⟩,
      ?_, ?_, hfit⟩
    · simp only; omega
    · simp only; omega
    · rw [Set.mem_insert_iff, List.mem_cons, h.mem_iff]
    · refine List.forall_mem_cons.2 ⟨⟨?_, ?_, ?_, ?_⟩, fun b hb => ?_⟩
      · simp only; omega
      · exact hn.2.1
      · simp only; omega
      · exact Nat.le_refl _
      · obtain ⟨h1, h2, h3, h4⟩ := h.ok b hb
        simp only at h3 h4 ⊢
        exact ⟨h1, h2, h3, by omega⟩
    · exact fun b hb => hpast b ((h.mem_iff b).1 hb)
    · omega
  · cases he

/-- What a placing call guarantees, given what its effect writes. -/
theorem Inv.placeCall {keep : List (Nat × Nat)} (h0 : st.Inv segs L) {K : Set (Nat × Nat)}
    (h : Inv { st with blocks := keep } segs K) {n w : Nat} {eff : Nat → Mem → Mem}
    {brk : Option Nat}
    {Q : List Span → Option Nat → BumpSpace → (Mem → Mem) → Prop} (hw : w ≤ n)
    (heff : ∀ p m x, (x < p ∨ p + w ≤ x) → eff p m x = m x)
    (hnone : Q segs none st id)
    (hsome : ∀ p st', MsFrame segs K (eff p) → (∀ b ∈ K, b.1 + b.2 + 8 ≤ p) →
      (∃ u, n ≤ u ∧ (∀ v, (p, v) ∉ K) ∧ st'.Inv segs (insert (p, u) K)) →
      Q segs (some p) st' (eff p)) :
    (st.placeCall n keep eff).Sat Q segs brk := by
  unfold BumpSpace.placeCall
  cases he : st.place n keep with
  | none => exact hnone
  | some r =>
    obtain ⟨p, st'⟩ := r
    obtain ⟨hInv, hpast, hlo, hfit⟩ := h.place he
    have hn := le_bodySize n
    refine hsome p st' ?_ hpast ⟨bodySize n, hn.1, fun v hv => ?_, hInv⟩
    · rintro m x (hx | ⟨b, hb, hx1, hx2⟩)
      · refine heff p m x ?_
        have := hx _ h0.seg
        simp only [Span.Has] at this
        omega
      · have := hpast b hb
        exact heff p m x (.inl (by omega))
    · have := hpast _ hv
      simp only at this
      omega

theorem Inv.covered (h : st.Inv segs L) {b : Nat × Nat} (hb : b ∈ L) {x : Nat}
    (hx : (msFoot b.1 b.2).Has x) : ∃ s ∈ segs, s.Has x := by
  obtain ⟨-, -, h1, h2⟩ := h.ok b ((h.mem_iff b).1 hb)
  have := h.top_le
  refine ⟨_, h.seg, ?_⟩
  simp only [msFoot, Span.Has] at hx ⊢
  omega

theorem Inv.disjoint (h : st.Inv segs L) {b c : Nat × Nat} (hb : b ∈ L) (hc : c ∈ L) (hne : b ≠ c) :
    (msFoot b.1 b.2).Disjoint (msFoot c.1 c.2) := by
  have hp : _ := h.apart.imp (S := fun b c => (msFoot b.1 b.2).Disjoint (msFoot c.1 c.2))
    fun {b c} hbc => by simp only [msFoot, Span.Disjoint]; omega
  have : Std.Symm fun b c : Nat × Nat => (msFoot b.1 b.2).Disjoint (msFoot c.1 c.2) :=
    ⟨fun _ _ => .symm⟩
  exact hp.forall ((h.mem_iff b).1 hb) ((h.mem_iff c).1 hc) hne

/-- The space meets the contract. -/
def contract : mspace.Contract where
  Inv := Inv
  aligned h b hb := (h.ok b ((h.mem_iff b).1 hb)).1
  usable_eq h b hb := h.usable_eq hb
  usable_pos h b hb := (h.ok b ((h.mem_iff b).1 hb)).2.1
  covered h b hb x hx := h.covered hb hx
  disjoint h b hb c hc hne := h.disjoint hb hc hne
  create lo len hlo :=
    ⟨⟨.head _, Nat.le_refl _, Nat.le_add_right _ _, hlo, fun b => by simp [mspace],
    nofun, .nil⟩, fun _ _ _ => rfl⟩
  malloc n brk h := h.placeCall h (w := 0) (Nat.zero_le _) (fun _ _ _ _ => rfl)
    ⟨fun _ _ _ => rfl, h⟩ fun p st' hf _ hb => ⟨hf, hb⟩
  calloc c n brk h := h.placeCall h (Nat.le_refl _) (fun p m x hx => Mem.memset_of_notMem hx)
    ⟨fun _ _ _ => rfl, h⟩ fun p st' hf _ hb =>
      ⟨hf, hb, fun m i hi => Mem.memset_of_mem (by omega) (by omega)⟩
  realloc {st _ _} p u n brk h hp := by
    have hu : st.usable p = u := h.usable_eq hp
    refine h.placeCall (h.drop p) (Nat.min_le_right (st.usable p) n)
      (fun q m x hx => Mem.memcpy_of_notMem hx) ⟨fun _ _ _ => rfl, h⟩ fun q st' hf _ hb => ?_
    exact ⟨hf, hb, fun m i hi hi' => Mem.memcpy_of_mem (by omega)⟩
  free p u h hp := ⟨h.drop p, fun _ _ _ => rfl⟩

end BumpSpace

/-- A host with 4 KiB pages whose spaces are bump spaces. -/
def bumpHost : Host BumpSpace := ⟨4096, .inl rfl, BumpSpace.mspace⟩

end ArenaJs
