import ArenaJs.Alloc.Account

/-!
# Frozen dual arenas with another base

In request mode no hook reads or writes the base record: with another base, and the blocks of that
base, an action does the same (`exec_on`). A reallocation of a base block is an allocation and a
copy, whichever base the block is in, and keeps the layout (`jdaRealloc_foreign_spec`).
-/

namespace ArenaJs

/-! ## Exchanging the base -/

section
variable {σ : Type} {H : Host σ} {da : DualArena σ} {S : Sys σ} {B : JSArena}
variable {size : Nat} {ra : RequestArena σ}

/-- The dual arena with another base. -/
def DualArena.rebase (da : DualArena σ) (B : JSArena) : DualArena σ := { da with base := B }

/-- The system with another base and its blocks. -/
def Sys.on (S : Sys σ) (B : JSArena) (bl : List Block) : Sys σ := ⟨S.da.rebase B, S.live ++ bl⟩

theorem sizeOk_request (hm : da.mode = .request) : SizeOk H da size ↔
    ∀ ra, da.selected = some ra → ra.mode = .bump → FitsPages H ra.cursor size := by
  cases hs : da.selected with
  | none => simp [SizeOk, hm, hs]
  | some ra => cases hb : ra.mode <;> simp [SizeOk, hm, hs, hb]

theorem SizeOk.rebase (h : SizeOk H da size) (hm : da.mode = .request) :
    SizeOk H (da.rebase B) size := by
  have hm' : (da.rebase B).mode = .request := hm
  rw [sizeOk_request hm']
  exact (sizeOk_request hm).1 h

theorem bumpResult_rebase (n : Nat) (r : Option Nat × RequestArena σ × Mem) :
    bumpResult (da.rebase B) n r = ((bumpResult da n r).1, (bumpResult da n r).2.rebase B) := by
  obtain ⟨_ | _, ra, m⟩ := r <;> rfl

theorem msResult_rebase (da : DualArena σ) (n credit : Nat)
    (r : Option Nat × RequestArena σ × Mem) :
    msResult H (da.rebase B) n credit r =
      ((msResult H da n credit r).1, (msResult H da n credit r).2.rebase B) := by
  obtain ⟨_ | _, ra, m⟩ := r <;> rfl

theorem jdaMalloc_rebase (hm : da.mode = .request) (size : Nat) (ds : List Decision) :
    jdaMalloc H (da.rebase B) size ds =
      ((jdaMalloc H da size ds).1, (jdaMalloc H da size ds).2.rebase B) := by
  have hm' : (da.rebase B).mode = .request := hm
  have hsel : (da.rebase B).selected = da.selected := rfl
  simp only [jdaMalloc, hm, hm', hsel]
  cases da.selected with
  | none => rfl
  | some ra =>
    simp only
    cases ra.mode with
    | bump => exact bumpResult_rebase ..
    | gc =>
      cases ra.msp with
      | none => rfl
      | some st => exact msResult_rebase (park da ra) ..

theorem jdaCalloc_rebase (hm : da.mode = .request) (count size : Nat) (ds : List Decision) :
    jdaCalloc H (da.rebase B) count size ds =
      ((jdaCalloc H da count size ds).1, (jdaCalloc H da count size ds).2.rebase B) := by
  have hm' : (da.rebase B).mode = .request := hm
  have hsel : (da.rebase B).selected = da.selected := rfl
  simp only [jdaCalloc, hm, hm', hsel]
  split
  · rfl
  split
  · rfl
  cases da.selected with
  | none => rfl
  | some ra =>
    simp only
    cases ra.mode with
    | bump =>
      simp only
      cases hr : reqBumpAlloc H ra da.mem (Word.mul count size) ds with
      | mk ret rest =>
        have hr' : reqBumpAlloc H ra (da.rebase B).mem (Word.mul count size) ds = (ret, rest) := hr
        rw [hr']
        cases ret <;> exact bumpResult_rebase ..
    | gc =>
      cases ra.msp with
      | none => rfl
      | some st => exact msResult_rebase (park da ra) ..

theorem jdaRealloc_rebase (hm : da.mode = .request) (ptr : Option Nat) (size : Nat)
    (ds : List Decision) : jdaRealloc H (da.rebase B) ptr size ds =
      ((jdaRealloc H da ptr size ds).1, (jdaRealloc H da ptr size ds).2.rebase B) := by
  have hm' : (da.rebase B).mode = .request := hm
  have hsel : (da.rebase B).selected = da.selected := rfl
  cases ptr with
  | none => rw [jdaRealloc_null hm, jdaRealloc_null hm', jdaMalloc_rebase hm]
  | some ptr =>
    have howner : (da.rebase B).ptrRequestOwner ptr = da.ptrRequestOwner ptr := rfl
    have hsize : reqPtrSize H (da.rebase B) = reqPtrSize H da := rfl
    simp only [jdaRealloc, hm, hm', hsel, howner, hsize]
    split
    · rfl
    cases da.selected with
    | none => rfl
    | some ra =>
      simp only
      cases ra.mode with
      | bump => exact bumpResult_rebase ..
      | gc =>
        cases ra.msp with
        | none => rfl
        | some st =>
          simp only
          split
          · exact msResult_rebase (park da ra) ..
          · cases hr : runMs H (H.ms.malloc st size) ra da.mem ds with
            | mk ret rest =>
              have hr' : runMs H (H.ms.malloc st size) ra (da.rebase B).mem ds = (ret, rest) := hr
              rw [hr']
              cases ret <;> exact msResult_rebase (park da ra) ..

theorem jdaFree_rebase (hm : da.mode = .request) (ptr : Option Nat) :
    jdaFree H (da.rebase B) ptr = (jdaFree H da ptr).rebase B := by
  have hm' : (da.rebase B).mode = .request := hm
  cases ptr with
  | none => rfl
  | some ptr =>
    have howner : (da.rebase B).ptrRequestOwner ptr = da.ptrRequestOwner ptr := rfl
    simp only [jdaFree, hm, hm', howner]
    cases da.ptrRequestOwner ptr with
    | none => rfl
    | some owner =>
      simp only
      cases owner.mode with
      | bump => rfl
      | gc => cases owner.msp <;> rfl

/-- The blocks after a hook, with the base's beside them. -/
theorem afterAlloc_on {live bl : List Block} {gone : Block → Bool}
    {r : Option Nat × DualArena σ} (hkeep : r.1 ≠ none → ∀ b ∈ bl, gone b = false) :
    afterAlloc H (live ++ bl) gone size (r.1, r.2.rebase B) =
      (afterAlloc H live gone size r).on B bl := by
  have hblock : ∀ p, blockOf H (r.2.rebase B) p size = blockOf H r.2 p size := fun _ => rfl
  unfold afterAlloc
  cases hr : r.1 with
  | none => rfl
  | some p =>
    have hbl : (bl.filter fun b => !gone b) = bl :=
      List.filter_eq_self.2 fun b hb => by rw [hkeep (by rw [hr]; nofun) b hb]; rfl
    simp [Sys.on, hblock, hbl]

theorem jsRequestArenaFree_rebase (id : ReqId) :
    jsRequestArenaFree (da.rebase B) id = (jsRequestArenaFree da id).rebase B := by
  by_cases hc : da.cur = some id <;> simp [jsRequestArenaFree, DualArena.rebase, hc]

/-- An action on a frozen dual arena does not see the base: with another base and its blocks it does
the same, unless it moves a block to where one of them is. -/
theorem exec_on {act : Act} {bl : List Block} (hm : S.da.mode = .request)
    (hbl : ∀ b ∈ bl, b.home = .base)
    (hact : act ≠ .freeze) (hptr : ∀ ptr size ds, act = .realloc (some ptr) size ds →
      (exec H S act).1 = some ptr → ∀ b ∈ bl, b.ptr ≠ ptr) :
    exec H (S.on B bl) act = ((exec H S act).1, (exec H S act).2.on B bl) := by
  have hid : ∀ {id : ReqId}, (bl.filter fun b => b.home.id? ≠ some id) = bl := fun {id} =>
    List.filter_eq_self.2 fun b hb => by simp [hbl b hb, Home.id?]
  cases act with
  | malloc size ds =>
    simp only [exec, Sys.on, jdaMalloc_rebase hm]
    rw [afterAlloc_on fun _ _ _ => rfl]
    rfl
  | calloc count size ds =>
    simp only [exec, Sys.on, jdaCalloc_rebase hm]
    rw [afterAlloc_on fun _ _ _ => rfl]
    rfl
  | realloc ptr size ds =>
    cases ptr with
    | none =>
      simp only [exec, Sys.on, jdaRealloc_rebase hm]
      rw [afterAlloc_on fun _ _ _ => rfl]
      rfl
    | some ptr =>
      simp only [exec, Sys.on, jdaRealloc_rebase hm]
      rw [show reallocGone (S.da.rebase B) = reallocGone S.da from rfl, afterAlloc_on ?_]
      · rfl
      · intro _ b hb
        rw [reallocGone, decide_eq_false_iff_not, hbl b hb]
        rintro ⟨hbp, hp | hp⟩
        · exact hptr ptr size ds rfl hp b hb hbp
        · cases hc : S.da.cur <;> simp [hc] at hp
  | free ptr =>
    have hbl' : freed bl ptr = bl := freed_eq_self fun b hb _ => by rw [hbl b hb]; rfl
    simp only [exec, Sys.on, jdaFree_rebase hm]
    rw [show freed (S.live ++ bl) ptr = freed S.live ptr ++
      freed bl ptr from List.filter_append .., hbl']
  | store addr byte => rfl
  | newRequest id cap ds =>
    simp only [exec, Sys.on, jsRequestArenaNew]
    rw [show (S.da.rebase B).mode = S.da.mode from rfl, show (S.da.rebase B).mem =
      S.da.mem from rfl]
    cases requestArenaNew H S.da.mode id S.da.mem cap ds <;> rfl
  | freeRequest id =>
    simp only [exec, Sys.on, List.filter_append, hid, jsRequestArenaFree_rebase]
  | select id => rfl
  | setMode mode =>
    simp only [exec, Sys.on, setRequestMode]
    rw [show (S.da.rebase B).selected = S.da.selected from rfl]
    cases S.da.selected <;> rfl
  | reset id =>
    simp only [exec, Sys.on, List.filter_append, hid, jsRequestArenaReset]
    rw [show (S.da.rebase B).find id = S.da.find id from rfl]
    cases S.da.find id <;> rfl
  | freeze => exact absurd rfl hact

/-! ## Copies -/

/-- A free of a pointer that no request arena owns does nothing. -/
theorem jdaFree_foreign {ptr : Nat} (hown : da.ptrRequestOwner ptr = none) :
    jdaFree H da (some ptr) = da := by
  obtain hm | hm := ArenaMode.cases da.mode <;> simp only [jdaFree, hm, hown]

/-- A base block is not resized in place. -/
theorem jdaRealloc_moves {C : H.ms.Contract} {live : List Block} {b : Block}
    {ds : List Decision} (L : Layout C da live) (hmode : da.mode = .request) (hb : b ∈ live)
    (hh : b.home = .base) (hsz : SizeOk H da size) (hoff : Offers da ds) :
    (jdaRealloc H da (some b.ptr) size ds).1 ≠ some b.ptr := by
  intro hret
  have hz : size ≠ 0 := fun hz => by
    rw [jdaRealloc_refused hmode (.inl hz)] at hret
    cases hret
  have hok := jdaRealloc_spec L hb hsz hoff
  obtain ⟨hbase, -, hplace⟩ := hok.moves hh hmode
  obtain ⟨ra, hr, c, hc, hw⟩ := hplace _ hret
  have L' := hok.ok
  rw [Sys.Ok, afterAlloc_da] at L'
  have hin := (L.blocks b hb).in_base L.base hh
  have hlo := (L.blocks b hb).lo_add
  have hlt := (L.blocks b hb).ptr_lt
  refine (L'.geo.base ra hr c hc).not_has (x := b.ptr) ?_ ?_
  · rw [hbase]
    simp only [Span.Has, JSArena.span]
    omega
  · simp only [Span.Has, Span.Within] at hw ⊢
    omega

/-- A reallocation of a pointer that no request arena owns is an allocation and a copy, so it keeps
the layout. -/
theorem jdaRealloc_foreign_spec {C : H.ms.Contract} {live : List Block} (L : Layout C da live)
    (hmode : da.mode = .request) {ptr size : Nat} {ds : List Decision} {gone : Block → Bool}
    (hsz : SizeOk H da size) (hoff : Offers da ds) (hown : da.ptrRequestOwner ptr = none)
    (hlast : ∀ ra, da.selected = some ra → ra.mode = .bump → ra.lastAllocPtr ≠ some ptr)
    (hkeep : ∀ b ∈ live, gone b = false) :
    Sys.Ok C (afterAlloc H live gone size (jdaRealloc H da (some ptr) size ds)) := by
  by_cases hbad : size = 0 ∨ da.selected = none
  · rw [jdaRealloc_refused hmode hbad]
    exact L
  obtain ⟨ra, hs⟩ := Option.ne_none_iff_exists'.1 fun h => hbad (.inr h)
  rw [jdaRealloc_copy (by omega) hmode hs (hlast ra hs) fun _ => by rw [hown]; nofun]
  refine (jdaMalloc_spec L hsz hoff).1.fill (fun _ _ _ => copyFrom_of_notMem) fun _ _ => ?_
  refine List.filter_eq_self.2 fun b hb => ?_
  rw [hkeep b hb]
  rfl

end
end ArenaJs
