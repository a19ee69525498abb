import ArenaJs.Lib.Chain

/-!
# Moving the nodes of an index to other heads

An index that grows walks its chains and puts each node in front of its chain among the new heads.
`Rehash` says what one turn of the walk does; `Rehash.chain` and `Rehash.index` are what follows for
one chain and for all.
-/

namespace ArenaJs

variable {σ α : Type}

/-- The index of the nodes of a state. -/
abbrev NodeIndex (node : σ → Nat → Option α) (link hash : α → Nat) (s : σ) :
    List Nat → (Nat → List Nat) → Prop :=
  HashIndex (fun i => (node s i).map link) fun i => (node s i).map hash

/-- The walk `move new s fuel i` takes the node `i` to its chain among the `size` heads `new` and
goes on with the node it was linked to. `ok` holds of the nodes, and `I` of the states. -/
structure Rehash (node : σ → Nat → Option α) (link hash : α → Nat) (ok : α → Prop) (I : σ → Prop)
    (size : Nat) (move : List Nat → σ → Nat → Nat → Option (List Nat × σ)) : Prop where
  done : ∀ new s fuel, move new s (fuel + 1) 0 = some (new, s)
  step : ∀ {new s i a}, I s → i ≠ 0 → node s i = some a → ok a → new.length = size →
    ∃ s' a', new[hash a % size]? = some (link a') ∧ I s' ∧ node s' i = some a' ∧ hash a' = hash a ∧
      (∀ j, j ≠ i → node s' j = node s j) ∧
      ∀ fuel, move new s (fuel + 1) i = move (new.set (hash a % size) i) s' fuel (link a)

/-- The state after the nodes `l` joined the index of `new`. -/
structure Rehashed (node : σ → Nat → Option α) (link hash : α → Nat) (I : σ → Prop)
    (new new' : List Nat) (s s' : σ) (ids ids' : Nat → List Nat) (l : List Nat) : Prop where
  inv : I s'
  length : new'.length = new.length
  index : NodeIndex node link hash s' new' ids'
  mem : ∀ n, HashIndex.Mem new' ids' n ↔ n ∈ l ∨ HashIndex.Mem new ids n
  other : ∀ n, n ∉ l → node s' n = node s n

section
variable {node : σ → Nat → Option α} {link hash : α → Nat} {ok : α → Prop} {I : σ → Prop}
  {size fuel i : Nat} {move : List Nat → σ → Nat → Nat → Option (List Nat × σ)} {s : σ}
  {new l : List Nat} {ids : Nat → List Nat}

theorem Rehashed.refl (hs : I s) (hidx : NodeIndex node link hash s new ids) :
    Rehashed node link hash I new new s s ids ids [] :=
  ⟨hs, rfl, hidx, by simp, fun _ _ => rfl⟩

/-- One chain after the other. -/
theorem Rehashed.trans {new1 new2 l1 l2 : List Nat} {s1 s2 : σ} {ids1 ids2 : Nat → List Nat}
    (h : Rehashed node link hash I new new1 s s1 ids ids1 l1)
    (h' : Rehashed node link hash I new1 new2 s1 s2 ids1 ids2 l2) :
    Rehashed node link hash I new new2 s s2 ids ids2 (l1 ++ l2) where
  inv := h'.inv
  length := h'.length.trans h.length
  index := h'.index
  mem n := by
    rw [h'.mem, h.mem, List.mem_append]
    tauto
  other n hn := by
    rw [List.mem_append, not_or] at hn
    rw [h'.other n hn.2, h.other n hn.1]

/-- What is asked of the nodes that still have to be moved. -/
theorem Rehashed.rest {new1 l1 : List Nat} {s1 : σ} {ids1 : Nat → List Nat}
    (h : Rehashed node link hash I new new1 s s1 ids ids1 l1) (hnot : ∀ n ∈ l, n ∉ l1)
    (hl : ∀ n ∈ l, ¬ HashIndex.Mem new ids n ∧ ∃ a, node s n = some a ∧ ok a) :
    ∀ n ∈ l, ¬ HashIndex.Mem new1 ids1 n ∧ ∃ a, node s1 n = some a ∧ ok a := by
  intro n hn
  rw [h.mem, h.other n (hnot n hn)]
  exact ⟨fun hm => hm.elim (hnot n hn) (hl n hn).1, (hl n hn).2⟩

/-- Moving a chain. -/
theorem Rehash.chain (h : Rehash node link hash ok I size move) (hs : I s)
    (hc : Chain (fun i => (node s i).map link) i l) (hidx : NodeIndex node link hash s new ids)
    (hsize : new.length = size)
    (hl : ∀ n ∈ l, ¬ HashIndex.Mem new ids n ∧ ∃ a, node s n = some a ∧ ok a)
    (hf : l.length < fuel) : ∃ new' s' ids', move new s fuel i = some (new', s') ∧
      Rehashed node link hash I new new' s s' ids ids' l := by
  induction l generalizing new s ids fuel i with
  | nil =>
    obtain ⟨k, rfl⟩ := Nat.exists_eq_succ_of_ne_zero (Nat.ne_zero_of_lt hf)
    obtain rfl := Chain.nil_iff.1 hc
    exact ⟨new, s, ids, h.done .., .refl hs hidx⟩
  | cons n l ih =>
    obtain ⟨k, rfl⟩ := Nat.exists_eq_succ_of_ne_zero (Nat.ne_zero_of_lt hf)
    have hnl : ∀ m ∈ l, m ≠ n := fun m hm he => (List.nodup_cons.1 hc.nodup).1 (he ▸ hm)
    obtain ⟨rfl, hne, j, hj, hrest⟩ := Chain.cons_iff.1 hc
    obtain ⟨hnew, a, ha, hok⟩ := hl i (.head _)
    rw [ha, Option.map_some, Option.some.injEq] at hj
    subst hj
    obtain ⟨s1, a', hhead, hs1, ha', hhash, hother, hmove⟩ := h.step hs hne ha hok hsize
    have hlt := (List.getElem?_eq_some_iff.1 hhead).1
    have hpush : Rehashed node link hash I new (new.set (hash a % size) i) s s1 ids
        (HashIndex.pushed ids (hash a % size) i) [i] := by
      refine ⟨hs1, List.length_set, ?_, fun m => ?_, fun m hm => hother m (by simpa using hm)⟩
      · refine hidx.push _ _ (v := hash a) hne hnew hhead (by simp only [ha', Option.map_some])
          (by simp only [ha', Option.map_some, hhash]) (by rw [hsize]) (fun m hm => ?_)
            fun m hm => ?_
        · rw [hother m hm]
        · rw [hother m hm]
      · rw [HashIndex.mem_pushed hlt, List.mem_singleton]
    obtain ⟨new', s', ids', hr, hrehashed⟩ := ih hs1
      (hrest.congr fun m hm => by rw [hother m (hnl m hm)]) hpush.index (by simpa using hsize)
      (hpush.rest (fun m hm => by simpa using hnl m hm) fun m hm => hl m (.tail _ hm))
      (show l.length < k by simpa using hf)
    exact ⟨new', s', ids', (hmove k).trans hr, hpush.trans hrehashed⟩

section
variable {heads : List Nat} {walk : σ → Nat} (h : Rehash node link hash ok I size move)
  (moves : List Nat → σ → List Nat → Option (List Nat × σ))
  (hnil : ∀ new s, moves new s [] = some (new, s))
  (hcons : ∀ new s k heads, moves new s (k :: heads) =
    (move new s (walk s) k).bind fun r => moves r.1 r.2 heads)
include h hnil hcons

/-- Moving the chains of all heads. -/
theorem Rehash.chains {ls : List (List Nat)} (hs : I s)
    (hc : List.Forall₂ (Chain fun i => (node s i).map link) heads ls) (hnd : ls.flatten.Nodup)
    (hidx : NodeIndex node link hash s new ids) (hsize : new.length = size)
    (hl : ∀ n ∈ ls.flatten, ¬ HashIndex.Mem new ids n ∧ ∃ a, node s n = some a ∧ ok a)
    (hf : ∀ s, I s → ∀ l ∈ ls, l.length < walk s) :
    ∃ new' s' ids', moves new s heads = some (new', s') ∧
      Rehashed node link hash I new new' s s' ids ids' ls.flatten := by
  induction ls generalizing heads new s ids with
  | nil =>
    cases hc
    exact ⟨new, s, ids, hnil .., .refl hs hidx⟩
  | cons l ls ih =>
    obtain ⟨k, heads, hk, hc', rfl⟩ := List.forall₂_cons_right_iff.1 hc
    rw [List.flatten_cons] at hnd hl
    obtain ⟨-, hnds, hdisj⟩ := List.nodup_append.1 hnd
    have hnot : ∀ n ∈ ls.flatten, n ∉ l := fun n hn hnl => hdisj n hnl n hn rfl
    obtain ⟨new1, s1, ids1, hr1, h1⟩ := h.chain hs hk hidx hsize (fun n hn => hl n (by simp [hn]))
      (hf s hs l (.head _))
    have hc1 : List.Forall₂ (Chain fun i => (node s1 i).map link) heads ls := by
      refine List.forall₂_iff_get.2 ⟨hc'.length_eq, fun b hb hb' => ?_⟩
      refine (hc'.get hb hb').congr fun n hn => ?_
      rw [h1.other n (hnot n (List.mem_flatten.2 ⟨_, List.getElem_mem hb', hn⟩))]
    obtain ⟨new2, s2, ids2, hr2, h2⟩ := ih h1.inv hc1 hnds h1.index (h1.length.trans hsize)
      (h1.rest hnot fun n hn => hl n (by simp [hn])) fun s hs l hl => hf s hs l (.tail _ hl)
    exact ⟨new2, s2, ids2, by rw [hcons, hr1]; exact hr2, h1.trans h2⟩

/-- Moving an index to empty heads: its nodes are those of the new one. -/
theorem Rehash.index {hash' : Nat → Option Nat} (hs : I s)
    (hidx : HashIndex (fun i => (node s i).map link) hash' heads ids)
    (hok : ∀ n, HashIndex.Mem heads ids n → ∃ a, node s n = some a ∧ ok a)
    (hf : ∀ s, I s → ∀ b < heads.length, (ids b).length < walk s) :
    ∃ new s' ids', moves (List.replicate size 0) s heads = some (new, s') ∧ I s' ∧
      new.length = size ∧ NodeIndex node link hash s' new ids' ∧
      ∀ n, HashIndex.Mem new ids' n ↔ HashIndex.Mem heads ids n := by
  obtain ⟨hnd, hmem⟩ := hidx.flatten
  obtain ⟨new, s', ids', hr, hre⟩ := h.chains moves hnil hcons hs hidx.forall₂ hnd
    (.empty _ _ fun v hv => List.eq_of_mem_replicate hv) (List.length_replicate ..)
    (fun n hn => ⟨HashIndex.not_mem_empty _ n, hok n ((hmem n).1 hn)⟩)
    fun s hs l hl => by
      obtain ⟨b, hb, rfl⟩ := List.mem_map.1 hl
      exact hf s hs b (List.mem_range.1 hb)
  refine ⟨new, s', ids', hr, hre.inv, hre.length.trans (List.length_replicate ..), hre.index,
    fun n => ?_⟩
  rw [hre.mem, hmem]
  exact or_iff_left (HashIndex.not_mem_empty _ n)

end

end

end ArenaJs
