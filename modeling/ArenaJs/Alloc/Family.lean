import ArenaJs.Alloc.Rebase

/-!
# Several dual arenas on one thread

The hooks look up the owner of a pointer among all request arenas of the thread, whichever dual
arena they belong to, and `morecore_ra` is the thread's. A `Family` is the frozen dual arenas of a
thread: each has its base and its selection, and they share the memory and the request arenas. A
hook of one of them does what it does on a dual arena with all of the thread's request arenas in its
list (`Family.exec`).

A step of one dual arena is a step of every other one with the selection exchanged (`exec_on`), so
the layouts of all of them are kept (`Family.Inv.exec`). `owner_directed` says what a free and a
reallocation do to the arenas of a family.
-/

namespace ArenaJs

variable {σ : Type} {H : Host σ}

/-- The frozen dual arenas of a thread, named by `ι`. `dual` is the dual arena of a request arena,
`live` are the blocks of the request arenas, `baseLive` those of each base. -/
structure Family (σ ι : Type) where
  mem : Mem
  morecoreRa : Option ReqId
  requests : List (RequestArena σ)
  live : List Block
  base : ι → JSArena
  baseLive : ι → List Block
  cur : ι → Option ReqId
  stateCell : ι → Option Nat
  dual : ReqId → ι

namespace Family

variable {σ ι : Type} (H : Host σ)
variable (F : Family σ ι) (k : ι)

/-- The dual arena `k` as its hooks see it: with all request arenas of the thread. -/
def view : DualArena σ :=
  { mem := F.mem, base := F.base k, mode := .request, cur := F.cur k, requests := F.requests,
    stateCell := F.stateCell k, morecoreRa := F.morecoreRa }

/-- The selection of `k` beside the base of `j`. -/
def sys (k j : ι) : Sys σ :=
  (⟨F.view k, F.live⟩ : Sys σ).on (F.base j) (F.baseLive j)

/-- A block of the thread. -/
def Live (b : Block) : Prop := b ∈ F.live ∨ ∃ i, b ∈ F.baseLive i

/-- The request arena of a name. -/
def arena (id : ReqId) : Option (RequestArena σ) :=
  F.requests.find? fun ra => ra.id = id

/-- An action on the dual arena `k`. -/
def exec [DecidableEq ι] (act : Act) : Option Nat × Family σ ι :=
  let r := ArenaJs.exec H ⟨F.view k, F.live⟩ act
  (r.1, { F with mem := r.2.da.mem, morecoreRa := r.2.da.morecoreRa, requests := r.2.da.requests,
                 live := r.2.live, cur := Function.update F.cur k r.2.da.cur,
                 stateCell := Function.update F.stateCell k r.2.da.stateCell,
                 dual := match act with
                  | .newRequest id _ _ => Function.update F.dual id k
                  | _ => F.dual })

/-- Offers of memory that no dual arena of the thread uses. -/
def Offered (ds : List Decision) : Prop := ∀ j, Offers (F.sys k j).da ds

/-- `ptr` is NULL or a block of the thread. -/
def LivePtr (ptr : Option Nat) : Prop :=
  ∀ p, ptr = some p → ∃ b, F.Live b ∧ b.ptr = p

/-- The assumptions of a step, as for one dual arena. The engine does not write to a frozen base,
and selects, resets and frees only request arenas of the dual arena it was given. -/
def ActOk : Act → Prop
  | .malloc size ds => SizeOk H (F.view k) size ∧ F.Offered k ds
  | .calloc count size ds =>
    (count * size < 2 ^ 64 → SizeOk H (F.view k) (count * size)) ∧ F.Offered k ds
  | .realloc ptr size ds => SizeOk H (F.view k) size ∧ F.Offered k ds ∧ F.LivePtr ptr
  | .free ptr => F.LivePtr ptr
  | .store addr _ => Writable (F.view k) F.live addr
  | .newRequest id _ ds => (∀ ra ∈ F.requests, ra.id ≠ id) ∧ F.Offered k ds ∧
      Fresh Span.Disjoint [] ds
  | .freeRequest id | .reset id => F.dual id = k ∧ ∃ ra ∈ F.requests, ra.id = id
  | .select id => ∀ i, id = some i → F.dual i = k ∧ ∃ ra ∈ F.requests, ra.id = i
  | .setMode _ => True
  | .freeze => False

/-- The family of dual arenas that have each been run alone up to the freeze, `S k` being the state
of `k`: bases and extents of different dual arenas are apart. -/
structure Born (S : ι → Sys σ) (F : Family σ ι) : Prop where
  reach : ∀ k, ArenaJs.Reach H (S k)
  frozen : ∀ k, (S k).da.mode = .request
  unused : ∀ k, ∀ b ∈ (S k).live, b.home = .base
  base : ∀ k, F.base k = (S k).da.base
  baseLive : ∀ k, F.baseLive k = (S k).live
  live : F.live = []
  requests : ∀ ra ∈ F.requests, ra ∈ (S (F.dual ra.id)).da.requests
  ids : F.requests.Pairwise fun r s => r.id ≠ s.id
  bases : ∀ ra ∈ F.requests, ∀ k, F.dual ra.id ≠ k → ∀ c ∈ ra.chunks,
    (F.base k).span.Disjoint c.span
  extents : ∀ r ∈ F.requests, ∀ s ∈ F.requests, F.dual r.id ≠ F.dual s.id →
    ∀ c ∈ r.chunks, ∀ d ∈ s.chunks, c.span.Disjoint d.span
  mem : ∀ k x, (F.base k).span.Has x → F.mem x = (S k).da.mem x

/-- The states reached by runs whose every step meets its assumptions. -/
inductive Reach [DecidableEq ι] : Family σ ι → Prop
  | init {F : Family σ ι} {S : ι → Sys σ} : F.Born H S → Reach F
  | step {F : Family σ ι} (k : ι) (act : Act) : Reach F → F.ActOk H k act →
      Reach (F.exec H k act).2

end Family

/-! ## The invariant -/

/-- The layout of every dual arena, whichever selection is made, and the accounts of the request
arenas. -/
structure Family.Inv {σ ι : Type} {H : Host σ} (C : H.ms.Contract) (F : Family σ ι) : Prop where
  ok : ∀ k j, (F.sys k j).Ok C
  base : ∀ j, ∀ b ∈ F.baseLive j, b.home = .base
  own : ∀ b ∈ F.live, b.home ≠ .base
  accounts : ∀ ra ∈ F.requests, ra.mode = .gc → ra.used = usedBy F.live ra.id

/-- The layout of a base does not depend on the request arenas while they have no blocks. -/
theorem Layout.exchange {C : H.ms.Contract} {da da' : DualArena σ}
    {live : List Block} (L : Layout C da live) (hbase : ∀ b ∈ live, b.home = .base)
    (hm : da'.mem = da.mem) (hb : da'.base = da.base) (hmode : da'.mode = .request)
    (geo : DaGeo da') (arenas : ∀ ra ∈ da'.requests, ArenaOk C live ra) : Layout C da' live := by
  refine ⟨by rw [hm, hb]; exact L.base, geo, fun h => ?_, fun _ => arenas, fun b hbl => ?_, L.own⟩
  · cases hmode.symm.trans h
  · have hok := L.blocks b hbl
    have hs := hok.housed
    refine { hok with housed := ?_ }
    simp only [Housed, hbase b hbl, hm, hb] at hs ⊢
    exact hs

/-- The blocks a frozen dual arena hands out are not base blocks. -/
theorem Charged.own {da : DualArena σ} {credit size : Nat}
    {r : Option Nat × DualArena σ} {live : List Block} {gone : Block → Bool}
    (hc : Charged H da credit r) (hm : da.mode = .request) (hown : ∀ b ∈ live, b.home ≠ .base) :
    ∀ b ∈ (afterAlloc H live gone size r).live, b.home ≠ .base := by
  unfold afterAlloc
  split
  · exact hown
  · next p hret =>
    rcases hc with ⟨hnone, -⟩ | ⟨ra, ra', m, hs, hid, -, hmode, hcur, hreq, -⟩
    · cases hret.symm.trans hnone
    refine List.forall_mem_cons.2 ⟨fun hh => ?_, fun b hb => hown b (List.mem_filter.1 hb).1⟩
    have hhome :=
      blockOf_id (H := H) (hmode.trans hm) (DualArena.selected_of_put hs hid hcur hreq) p
      size
    rw [hh] at hhome
    cases hhome

theorem exec_own {S : Sys σ} {act : Act} (h : Ready S.da)
    (hact : act ≠ .freeze) (hown : ∀ b ∈ S.live, b.home ≠ .base) :
    ∀ b ∈ (exec H S act).2.live, b.home ≠ .base := by
  cases act with
  | malloc size ds => exact (jdaMalloc_charged h size ds).own h.mode hown
  | calloc count size ds => exact (jdaCalloc_charged h count size ds).own h.mode hown
  | realloc ptr size ds =>
    cases ptr with
    | none =>
      simp only [exec, jdaRealloc_null h.mode]
      exact (jdaMalloc_charged h size ds).own h.mode hown
    | some ptr => exact (jdaRealloc_charged h ptr size ds).own h.mode hown
  | free | freeRequest | reset => exact fun b hb => hown b (List.mem_filter.1 hb).1
  | store | newRequest | select | setMode => exact hown
  | freeze => exact absurd rfl hact

namespace Family
section
variable {σ ι : Type} {H : Host σ} {C : H.ms.Contract} {F : Family σ ι} {S : ι → Sys σ}

/-- The layout after the freeze. -/
theorem Born.inv (C : H.ms.Contract) (h : F.Born H S) : F.Inv C := by
  have L : ∀ k, Layout C (S k).da (S k).live := fun k => (h.reach k).layout C
  have hbase : ∀ j, ∀ b ∈ F.baseLive j, b.home = .base := fun j b hb => by
    rw [h.baseLive] at hb
    exact h.unused j b hb
  have hlive : ∀ j, F.live ++ F.baseLive j = (S j).live := fun j => by
    rw [h.live, h.baseLive, List.nil_append]
  refine ⟨fun k j => ?_, hbase, by rw [h.live]; nofun, fun ra hr hgc => ?_⟩
  · have Lj : Layout C { (S j).da with mem := F.mem } (S j).live := by
      refine (L j).setMem (fun x hx hx' => h.mem j x ?_) fun b hb _ x hx => h.mem j x ?_
      · have h1 := (L j).base.le_capacity
        have h2 := (L j).base.floor_le
        rw [h.base]
        simp only [Span.Has, JSArena.span]
        omega
      · have hin := ((L j).blocks b hb).in_base (L j).base (h.unused j b hb)
        have hlt := ((L j).blocks b hb).ptr_lt
        rw [h.base]
        simp only [Span.Has, JSArena.span, Block.header] at hx ⊢
        omega
    show Layout C _ (F.live ++ F.baseLive j)
    rw [hlive]
    refine Lj.exchange (h.unused j) rfl (h.base j) rfl ⟨h.ids, ?_, ?_, ?_⟩ fun r hr => ?_
    · exact fun r hr => (L _).geo.ra r (h.requests r hr)
    · intro r hr c hc
      show (F.base j).span.Disjoint c.span
      by_cases hj : F.dual r.id = j
      · subst hj
        rw [h.base]
        exact (L _).geo.base r (h.requests r hr) c hc
      · exact h.bases r hr j hj c hc
    · intro r hr s hs hne c hc d hd
      by_cases hj : F.dual r.id = F.dual s.id
      · exact (L _).geo.cross r (h.requests r hr) s (hj ▸ h.requests s hs) hne c hc d hd
      · exact h.extents r hr s hs hj c hc d hd
    · refine ((L _).arenas (h.frozen _) r (h.requests r hr)).congr fun b hh => ?_
      refine ⟨fun hb => ?_, fun hb => ?_⟩ <;> rw [h.unused _ b hb] at hh <;> cases hh
  · have hacc := (h.reach (F.dual ra.id)).accounts C (h.frozen _) ra (h.requests ra hr) hgc
    rw [hacc, h.live, usedBy_nil]
    refine usedBy_eq_zero fun b hb hh => ?_
    rw [h.unused _ b hb] at hh
    cases hh

/-! ## Steps -/

section
variable {k : ι} {act : Act}

/-- The owner of a base block is none of the request arenas, and no bump allocator handed it out. -/
theorem Inv.foreign (hI : F.Inv C) {i : ι} {b : Block} (hb : b ∈ F.baseLive i) :
    (F.view k).ptrRequestOwner b.ptr = none ∧
      ∀ ra, (F.view k).selected = some ra → ra.mode = .bump → ra.lastAllocPtr ≠ some b.ptr := by
  have L : Layout C (F.sys k i).da (F.sys k i).live := hI.ok k i
  have hbm : b ∈ (F.sys k i).live := List.mem_append_right _ hb
  refine ⟨L.owner_base hbm (hI.base i b hb), fun ra hs hm hlast => ?_⟩
  have hr : ra ∈ (F.sys k i).da.requests := (DualArena.selected_mem hs).1
  have hok := L.arenas rfl ra hr
  simp only [ArenaOk, hm] at hok
  obtain ⟨c, hc⟩ := hok
  have hid := L.last_own hbm hr hc hlast
  rw [hI.base i b hb] at hid
  cases hid

/-- Base blocks do not count. -/
theorem Inv.usedBy_beside (hI : F.Inv C) (i : ι) (live : List Block) (id : ReqId) :
    usedBy (live ++ F.baseLive i) id = usedBy live id := by
  have hzero : usedBy (F.baseLive i) id = 0 := usedBy_eq_zero fun b hb hh => by
    rw [hI.base i b hb] at hh
    cases hh
  rw [usedBy_append, hzero, Nat.add_zero]

theorem Inv.accounts_sys (hI : F.Inv C) (k i : ι) : Accounts (F.sys k i).da (F.sys k i).live :=
  fun ra hr hgc => (hI.accounts ra hr hgc).trans (hI.usedBy_beside i F.live ra.id).symm

/-- A block of another place is not the base block `b`. -/
theorem Inv.ne_base (hI : F.Inv C) {i : ι} {b c : Block} (hb : b ∈ F.baseLive i) (hc : c ∈ F.live) :
    c.ptr ≠ b.ptr := fun h => by
  have L : Layout C (F.sys i i).da (F.sys i i).live := hI.ok i i
  have heq := L.eq_of_ptr (List.mem_append_left _ hc) (List.mem_append_right _ hb) h
  exact hI.own c hc (heq ▸ hI.base i b hb)

theorem sizeOk_sys {size : Nat} (h : SizeOk H (F.view k) size) (j : ι) :
    SizeOk H (F.sys k j).da size :=
  h.rebase rfl

/-- A step meets the assumptions for one dual arena beside every base, or its pointer is a block of
some base. -/
theorem ActOk.beside (hok : F.ActOk H k act) : (∀ j, act.Ok H (F.sys k j)) ∨
    ∃ i, act.Ok H (F.sys k i) ∧ ∃ b ∈ F.baseLive i,
      (∃ size ds, act = .realloc (some b.ptr) size ds ∧
      SizeOk H (F.view k) size ∧ F.Offered k ds) ∨ act = .free (some b.ptr) := by
  -- NULL and the blocks of the request arenas are live beside every base
  have key : ∀ ptr, F.LivePtr ptr → (∀ j, ArenaJs.LivePtr (F.sys k j).live ptr) ∨
      ∃ i, ArenaJs.LivePtr (F.sys k i).live ptr ∧ ∃ b ∈ F.baseLive i, ptr = some b.ptr := by
    rintro (_ | p) hp
    · exact .inl fun _ => nofun
    obtain ⟨b, hb | ⟨i, hb⟩, rfl⟩ := hp p rfl
    · exact .inl fun j _ h => ⟨b, List.mem_append_left _ hb, Option.some.inj h⟩
    · exact .inr ⟨i, fun _ h => ⟨b, List.mem_append_right _ hb, Option.some.inj h⟩, b, hb, rfl⟩
  cases act with
  | malloc size ds => exact .inl fun j => ⟨sizeOk_sys hok.1 j, hok.2 j⟩
  | calloc count size ds => exact .inl fun j => ⟨fun h => sizeOk_sys (hok.1 h) j, hok.2 j⟩
  | realloc ptr size ds =>
    obtain ⟨hsz, hoff, hp⟩ := hok
    obtain h | ⟨i, h, b, hb, rfl⟩ := key ptr hp
    · exact .inl fun j => ⟨sizeOk_sys hsz j, hoff j, h j⟩
    · exact .inr ⟨i, ⟨sizeOk_sys hsz i, hoff i, h⟩, b, hb, .inl ⟨size, ds, rfl, hsz, hoff⟩⟩
  | free ptr =>
    obtain h | ⟨i, h, b, hb, rfl⟩ := key ptr hok
    · exact .inl h
    · exact .inr ⟨i, h, b, hb, .inr rfl⟩
  | store addr byte =>
    exact .inl fun j => hok.imp_left fun ⟨b, hb, h⟩ => ⟨b, List.mem_append_left _ hb, h⟩
  | newRequest id cap ds => exact .inl fun j => ⟨hok.1, hok.2.1 j, hok.2.2⟩
  | freeRequest id | reset id => exact .inl fun _ => hok.2
  | select id => exact .inl fun _ i hi => (hok i hi).2
  | setMode mode => exact .inl fun _ => trivial
  | freeze => exact hok.elim

/-- A reallocation does the same beside any base. -/
theorem realloc_sys (F : Family σ ι) (k j : ι) (ptr size : Nat) (ds : List Decision) :
    jdaRealloc H (F.sys k j).da (some ptr) size ds =
      ((jdaRealloc H (F.view k) (some ptr) size ds).1,
        (jdaRealloc H (F.view k) (some ptr) size ds).2.rebase (F.base j)) :=
  jdaRealloc_rebase rfl (some ptr) size ds

theorem realloc_ret (F : Family σ ι) (k j : ι) (ptr size : Nat) (ds : List Decision) :
    (jdaRealloc H (F.sys k j).da (some ptr) size ds).1 =
      (jdaRealloc H (F.view k) (some ptr) size ds).1 := by
  rw [realloc_sys]

/-- A step beside any base does what the family's step does. -/
theorem Inv.exec_sys (hI : F.Inv C) (hok : F.ActOk H k act) (j : ι) :
    ArenaJs.exec H (F.sys k j) act = ((ArenaJs.exec H ⟨F.view k, F.live⟩ act).1,
      (ArenaJs.exec H ⟨F.view k, F.live⟩ act).2.on (F.base j) (F.baseLive j)) := by
  refine exec_on rfl (hI.base j) (fun h => by subst h; exact hok) ?_
  rintro ptr size ds rfl hret b hb rfl
  obtain ⟨hsz, hoff, hp⟩ := hok
  obtain ⟨c, hc | ⟨i, hc⟩, hcp⟩ := hp _ rfl
  · exact hI.ne_base hb hc hcp
  · have L : Layout C (F.sys k i).da (F.sys k i).live := hI.ok k i
    refine jdaRealloc_moves L rfl (List.mem_append_right _ hc) (hI.base i c hc) (sizeOk_sys hsz i)
      (hoff i) ?_
    rw [hcp]
    exact (realloc_ret F k i _ size ds).trans hret

/-- A reallocation of a base block keeps the layouts of the other dual arenas. -/
theorem Inv.realloc_ok (hI : F.Inv C) {i : ι} {b : Block} (hb : b ∈ F.baseLive i) {size : Nat}
    {ds : List Decision} (hsz : SizeOk H (F.view k) size) (hoff : F.Offered k ds) (j : ι) :
    (ArenaJs.exec H (F.sys k j) (.realloc (some b.ptr) size ds)).2.Ok C := by
  obtain ⟨hown, hlast⟩ := hI.foreign (k := k) hb
  have L : Layout C (F.sys k i).da (F.sys k i).live := hI.ok k i
  have hmoves := jdaRealloc_moves (H := H) L rfl (List.mem_append_right _ hb) (hI.base i b hb)
    (sizeOk_sys hsz i) (hoff i)
  have hret : (jdaRealloc H (F.sys k j).da (some b.ptr) size ds).1 =
      (jdaRealloc H (F.sys k i).da (some b.ptr) size ds).1 :=
    (realloc_ret F k j _ size ds).trans (realloc_ret F k i _ size ds).symm
  refine jdaRealloc_foreign_spec (hI.ok k j) rfl (sizeOk_sys hsz j) (hoff j) hown hlast
    fun c hc => ?_
  rw [reallocGone, decide_eq_false_iff_not]
  rintro ⟨hp, h | h⟩
  · exact hmoves (hret.symm.trans h)
  · rcases List.mem_append.1 hc with hc | hc
    · exact hI.ne_base hb hc hp
    · rw [hI.base j c hc] at h
      obtain ⟨_, _, h⟩ := Option.map_eq_some_iff.1 h
      cases h

/-- A free of a base block changes no layout. -/
theorem Inv.free_ok (hI : F.Inv C) {i : ι} {b : Block} (hb : b ∈ F.baseLive i) (j : ι) :
    (ArenaJs.exec H (F.sys k j) (.free (some b.ptr))).2.Ok C := by
  have hfree : jdaFree H (F.sys k j).da (some b.ptr) = (F.sys k j).da :=
    jdaFree_foreign (hI.foreign (k := k) hb).1
  have hlive : freed (F.sys k j).live (some b.ptr) = (F.sys k j).live := by
    refine freed_eq_self fun c hc hp => ?_
    rcases List.mem_append.1 hc with hc | hc
    · exact absurd (Option.some.inj hp) (hI.ne_base hb hc)
    · rw [hI.base j c hc]
      rfl
  simp only [ArenaJs.exec, hfree, hlive]
  exact hI.ok k j

/-- Every step keeps the layouts of all dual arenas. -/
theorem Inv.exec_ok (hI : F.Inv C) (hok : F.ActOk H k act) (j : ι) :
    (ArenaJs.exec H (F.sys k j) act).2.Ok C := by
  obtain h | ⟨i, -, b, hb, ⟨size, ds, rfl, hsz, hoff⟩ | rfl⟩ := hok.beside
  · exact (hI.ok k j).exec (h j)
  · exact hI.realloc_ok hb hsz hoff j
  · exact hI.free_ok hb j

/-- Every step keeps the invariant. -/
theorem Inv.exec [DecidableEq ι] (hI : F.Inv C) (hok : F.ActOk H k act) :
    (F.exec H k act).2.Inv C := by
  have hact : act ≠ .freeze := fun h => by subst h; exact hok
  have hmode : (ArenaJs.exec H ⟨F.view k, F.live⟩ act).2.da.mode = .request := exec_mode hact
  refine ⟨fun k' j => ?_, hI.base, ?_, ?_⟩
  · have L := hI.exec_ok hok j
    rw [hI.exec_sys hok j] at L
    have L' := Layout.setCur L ((F.exec H k act).2.cur k') ((F.exec H k act).2.stateCell k')
      (F.exec H k act).2.morecoreRa
    simp only [Sys.on, DualArena.rebase, hmode] at L'
    exact L'
  · exact exec_own ((hI.ok k k).ready rfl) hact hI.own
  · obtain ⟨i, hi⟩ : ∃ i, act.Ok H (F.sys k i) :=
      hok.beside.elim (fun h => ⟨k, h k⟩) (Exists.imp fun _ => And.left)
    have h := Sys.accounts_exec (hI.accounts_sys k i) (hI.ok k i) rfl hi
    rw [hI.exec_sys hok i] at h
    exact fun ra hr hgc => (h ra hr hgc).trans (hI.usedBy_beside i _ ra.id)

/-- Every reachable family meets the invariant. -/
theorem Reach.inv [DecidableEq ι] (C : H.ms.Contract) (h : F.Reach H) : F.Inv C := by
  induction h with
  | init hb => exact hb.inv C
  | step _ _ _ hok ih => exact ih.exec hok

end

/-! ## Frees and reallocations -/

section
variable {k : ι} {b : Block}

/-- A free of a block that is in no mspace does nothing. -/
theorem Inv.free_noop (hI : F.Inv C) (hb : F.Live b) (hgc : b.home.isGc = false) :
    jdaFree H (F.view k) (some b.ptr) = F.view k := by
  rcases hb with hb | ⟨i, hb⟩
  · have L : Layout C (F.view k) (F.live ++ F.baseLive k) := hI.ok k k
    exact jdaFree_noop L (List.mem_append_left _ hb) hgc
  · exact jdaFree_foreign (hI.foreign hb).1

/-- A free of a block of an mspace takes its usable size off the owner's count. -/
theorem Inv.free_gc (hI : F.Inv C) (hb : F.Live b) {ra : RequestArena σ} (hr : ra ∈ F.requests)
    (hh : b.home = .gc ra.id) : msUsable H ra b.ptr ≤ ra.used ∧ ∃ st, ra.msp = some st ∧
      jdaFree H (F.view k) (some b.ptr) =
        (F.view k).put { ra with used := ra.used - msUsable H ra b.ptr,
                                 msp := some (H.ms.free st (toView ra.headBuf b.ptr)).1 }
          (applyView ra.headBuf (H.ms.free st (toView ra.headBuf b.ptr)).2 F.mem) := by
  rcases hb with hb | ⟨i, hb⟩
  · have L : Layout C (F.view k) (F.live ++ F.baseLive k) := hI.ok k k
    have hbm : b ∈ F.live ++ F.baseLive k := List.mem_append_left _ hb
    have hid : b.home.id? = some ra.id := by rw [hh]; rfl
    obtain ⟨rb, hrb, hrid, hm, -⟩ := (L.blocks b hbm).in_room hid
    obtain rfl := L.geo.eq_of_id hrb hr hrid
    have hgc : rb.mode = .gc := (ReqMode.cases rb.mode).resolve_right fun hbump => by
      rw [hm.1 hbump] at hh
      cases hh
    have hacc : Accounts (F.view k) (F.live ++ F.baseLive k) := hI.accounts_sys k k
    have hle := hacc.usable_le L rfl hr hgc hbm hh
    have hlt : rb.used < 2 ^ 64 := hacc rb hr hgc ▸ L.usedBy_lt rb.id
    obtain ⟨st, hst⟩ := Option.isSome_iff_exists.1 ((L.ready rfl).msp rb hr hgc)
    refine ⟨hle, st, hst, ?_⟩
    rw [jdaFree_gc rfl (L.owner_eq hbm hr hid) hgc hst, Word.sub_eq hlt hle]
    rfl
  · rw [hI.base i b hb] at hh
    cases hh

/-- A block of an mspace has its arena. -/
theorem Inv.gc_owner (hI : F.Inv C) (hb : F.Live b) (hgc : b.home.isGc = true) :
    ∃ ra ∈ F.requests, b.home = .gc ra.id := by
  cases hh : b.home with
  | base | bump => rw [hh] at hgc; cases hgc
  | gc id =>
    rcases hb with hb | ⟨i, hb⟩
    · have L : Layout C (F.view (F.dual id)) (F.live ++ F.baseLive (F.dual id)) := hI.ok _ _
      obtain ⟨ra, hr, rfl, -⟩ := (L.blocks b (List.mem_append_left _ hb)).in_room
        (show b.home.id? = some id by rw [hh]; rfl)
      exact ⟨ra, hr, rfl⟩
    · rw [hI.base i b hb] at hh
      cases hh

/-- A reallocation that fails leaves the bytes of the block alone. -/
theorem Inv.realloc_failed (hI : F.Inv C) (hb : F.Live b) {size : Nat} {ds : List Decision}
    (hsz : SizeOk H (F.view k) size) (hoff : F.Offered k ds)
    (hret : (jdaRealloc H (F.view k) (some b.ptr) size ds).1 = none) {x : Nat}
    (hx : b.ptr ≤ x) (hx' : x < b.hi) :
    (jdaRealloc H (F.view k) (some b.ptr) size ds).2.mem x = F.mem x := by
  have key : ∀ i, b ∈ F.live ++ F.baseLive i →
      (jdaRealloc H (F.view k) (some b.ptr) size ds).2.mem x = F.mem x := fun i hbi => by
    have h := (jdaRealloc_spec (hI.ok k i) hbi (sizeOk_sys hsz i) (hoff i)).failed
      ((realloc_ret F k i b.ptr size ds).trans hret) x hx hx'
    rw [realloc_sys] at h
    exact h
  rcases hb with hb | ⟨i, hb⟩
  · exact key k (List.mem_append_left _ hb)
  · exact key i (List.mem_append_right _ hb)

/-- The records and the memory after a reallocation. -/
theorem exec_realloc [DecidableEq ι] (F : Family σ ι) (k : ι) (ptr size : Nat)
    (ds : List Decision) :
    (F.exec H k (.realloc (some ptr) size ds)).2.requests =
      (jdaRealloc H (F.view k) (some ptr) size ds).2.requests ∧
    (F.exec H k (.realloc (some ptr) size ds)).2.mem =
      (jdaRealloc H (F.view k) (some ptr) size ds).2.mem := by
  simp [Family.exec, ArenaJs.exec, afterAlloc_da]

/-- The counter of an arena in GC mode, by the sizes dlmalloc reports. -/
theorem Inv.used_eq (hI : F.Inv C) {ra : RequestArena σ} (hr : ra ∈ F.requests)
    (hgc : ra.mode = .gc) : ra.used =
      ((F.live.filter fun b => b.home = .gc ra.id).map fun b => msUsable H ra b.ptr).sum := by
  have L : Layout C (F.view (F.dual ra.id)) (F.live ++ F.baseLive (F.dual ra.id)) := hI.ok _ _
  rw [hI.accounts ra hr hgc, usedBy]
  refine congrArg List.sum (List.map_congr_left fun b hb => ?_)
  obtain ⟨hb, hh⟩ := List.mem_filter.1 hb
  exact (L.usable rfl hr hgc (List.mem_append_left _ hb) (of_decide_eq_true hh)).symm

/-- A block in an mspace is a block of a request. -/
theorem Inv.live_of_gc (hI : F.Inv C) (hb : F.Live b) {id : ReqId} (hh : b.home = .gc id) :
    b ∈ F.live := by
  refine hb.resolve_right ?_
  rintro ⟨i, hi⟩
  rw [hI.base i b hi] at hh
  cases hh

/-- What a reallocation of `b` reclaims of the blocks of the selected arena. -/
theorem Inv.usedBy_gone (hI : F.Inv C) (hb : F.Live b) {id : ReqId} (hcur : F.cur k = some id)
    (ret : Option Nat) : usedBy (F.live.filter fun c => !reallocGone (F.view k) b.ptr ret c) id +
      (if b.home = .gc id then b.hi - b.ptr else 0) = usedBy F.live id := by
  have L : Layout C (F.view k) (F.live ++ F.baseLive k) := hI.ok k k
  have heq : ∀ c ∈ F.live, c.ptr = b.ptr → c = b := fun c hc hp => by
    rcases hb with hb | ⟨i, hb⟩
    · exact L.eq_of_ptr (List.mem_append_left _ hc) (List.mem_append_left _ hb) hp
    · exact absurd hp (hI.ne_base hb hc)
  have hgone : ∀ c, c.home = .gc id → (reallocGone (F.view k) b.ptr ret c = true ↔ c.ptr = b.ptr) :=
    fun c hh => by
      have hc : (F.view k).cur = some id := hcur
      simp [reallocGone, hc, hh]
  split
  · next hh =>
    refine usedBy_remove (hI.live_of_gc hb hh) (L.nodup.sublist (List.sublist_append_left _ _)) hh
      fun c hc hch => ?_
    rw [Bool.not_eq_true', Bool.eq_false_iff, Ne, hgone c hch, not_iff_not]
    exact ⟨heq c hc, fun h => h ▸ rfl⟩
  · next hh =>
    rw [Nat.add_zero]
    refine usedBy_filter fun c hc hch => ?_
    rw [Bool.not_eq_true', Bool.eq_false_iff, Ne, hgone c hch]
    exact fun hp => hh (heq c hc hp ▸ hch)

/-- A reallocation in a bump-mode arena is charged to its counter. -/
theorem Inv.realloc_bump (hI : F.Inv C) (hb : F.Live b) {size p : Nat} {ds : List Decision}
    (hsz : SizeOk H (F.view k) size) (hoff : F.Offered k ds)
    (hret : (jdaRealloc H (F.view k) (some b.ptr) size ds).1 = some p) {ra ra' : RequestArena σ}
    (hs : (F.view k).selected = some ra) (hm : ra.mode = .bump)
    (hfind : (jdaRealloc H (F.view k) (some b.ptr) size ds).2.find ra.id = some ra') :
    Word.add ra'.bumpUsed (if p = b.ptr then ra.lastAllocAligned else 0) =
      Word.add ra.bumpUsed (Word.alignUp arenaAlign size) := by
  have key : ∀ i, b ∈ F.live ++ F.baseLive i →
      Word.add ra'.bumpUsed (if p = b.ptr then ra.lastAllocAligned else 0) =
        Word.add ra.bumpUsed (Word.alignUp arenaAlign size) := fun i hbi => by
    obtain ⟨ra'', m, hput, hid, hcharge⟩ := jdaRealloc_bumpUsed (hI.ok k i) rfl hbi hs hm
      (sizeOk_sys hsz i) (hoff i) p ((realloc_ret F k i b.ptr size ds).trans hret)
    rw [realloc_sys] at hput
    have hfind' := (congrArg (DualArena.find · ra.id) hput).symm.trans hfind
    rw [DualArena.find_put, show (F.sys k i).da.find ra.id = some ra from
      (DualArena.selected_find hs).2, Option.map_some, if_pos hid.symm] at hfind'
    exact Option.some.inj hfind' ▸ hcharge
  rcases hb with hb | ⟨i, hb⟩
  · exact key k (List.mem_append_left _ hb)
  · exact key i (List.mem_append_right _ hb)

/-- A reallocation charges the new block to the selected arena, less the old one if that was the
arena's too. -/
theorem Inv.realloc_charge [DecidableEq ι] (hI : F.Inv C) (hb : F.Live b) {size p : Nat}
    {ds : List Decision} (hok : F.ActOk H k (.realloc (some b.ptr) size ds))
    (hret : (F.exec H k (.realloc (some b.ptr) size ds)).1 = some p) :
    ∃ ra ra', (F.view k).selected = some ra ∧
      (F.exec H k (.realloc (some b.ptr) size ds)).2.arena ra.id = some ra' ∧ (ra.mode = .gc →
        ra'.used + (if b.home = .gc ra.id then msUsable H ra b.ptr else 0) =
          ra.used + msUsable H ra' p) ∧ (ra.mode = .bump →
        Word.add ra'.bumpUsed (if p = b.ptr then ra.lastAllocAligned else 0) =
          Word.add ra.bumpUsed (Word.alignUp arenaAlign size)) := by
  have L : Layout C (F.view k) (F.live ++ F.baseLive k) := hI.ok k k
  have hI' := hI.exec hok
  obtain ⟨hreqs, -⟩ := exec_realloc (H := H) F k b.ptr size ds
  rcases jdaRealloc_charged (H := H) (L.ready rfl) b.ptr size ds with
    ⟨hnone, -⟩ | ⟨ra, ra', m, hs, hid, hm, hmode, hcur, hreq, -⟩
  · cases hret.symm.trans hnone
  obtain ⟨hr, hc⟩ := DualArena.selected_mem hs
  have hsel' := DualArena.selected_of_put hs hid hcur hreq
  obtain ⟨hcur', hfind'⟩ := DualArena.selected_find hsel'
  have harena : (F.exec H k (.realloc (some b.ptr) size ds)).2.arena ra.id = some ra' := by
    rw [arena, hreqs, ← hid]
    exact hfind'
  refine ⟨ra, ra', hs, harena, fun hgc => ?_,
    fun hbump => hI.realloc_bump hb hok.1 hok.2.1 hret hs hbump (hid ▸ hfind')⟩
  have hgc' : ra'.mode = .gc := hm.trans hgc
  have hused' := hI'.accounts ra' (List.mem_of_find?_eq_some harena) hgc'
  have hlive : (F.exec H k (.realloc (some b.ptr) size ds)).2.live = blockOf H
      (jdaRealloc H (F.view k) (some b.ptr) size ds).2 p size ::
        F.live.filter fun c => !reallocGone (F.view k) b.ptr
          (jdaRealloc H (F.view k) (some b.ptr) size ds).1 c := afterAlloc_live hret
  have hgone := hI.usedBy_gone hb hc (jdaRealloc H (F.view k) (some b.ptr) size ds).1
  rw [hlive, usedBy_cons, blockOf_gc (hmode.trans rfl) hsel' hgc', if_pos rfl, hid,
    Nat.add_sub_cancel_left] at hused'
  have hold := hI.accounts ra hr hgc
  have husable : b.home = .gc ra.id → msUsable H ra b.ptr = b.hi - b.ptr := fun hh => by
    exact L.usable rfl hr hgc (List.mem_append_left _ (hI.live_of_gc hb hh)) hh
  split
  · next hh =>
    rw [if_pos hh] at hgone
    rw [husable hh]
    omega
  · next hh =>
    rw [if_neg hh] at hgone
    omega

/-- Frees and reallocations of a family. In every reachable state the counter of each arena in GC
mode is the sum of the usable sizes of its live blocks. A free of a live block, through any dual
arena, takes the block's usable size off the counter of the block's own arena, frees it in that
arena's mspace and leaves every other record alone; a block of no mspace is left alone altogether. A
reallocation touches the record of the selected arena only, to which it charges the new block: its
usable size in GC mode, its rounded size in bump mode, less that of the old block where that was the
arena's own or was resized in place. One that fails leaves the blocks, the bytes of the old block
and every counter of either allocator alone. -/
theorem owner_directed [DecidableEq ι] (C : H.ms.Contract) (hF : F.Reach H) :
    (∀ ra ∈ F.requests, ra.mode = .gc → ra.used =
      ((F.live.filter fun b => b.home = .gc ra.id).map fun b => msUsable H ra b.ptr).sum) ∧
    ∀ b, F.Live b → ∀ k,
      (∀ id, b.home ≠ .gc id → (F.exec H k (.free (some b.ptr))).2.arena id = F.arena id) ∧
      (∀ ra ∈ F.requests, b.home = .gc ra.id → msUsable H ra b.ptr ≤ ra.used ∧
        ∃ st, ra.msp = some st ∧ (F.exec H k (.free (some b.ptr))).2.arena ra.id =
          some { ra with used := ra.used - msUsable H ra b.ptr,
                         msp := some (H.ms.free st (toView ra.headBuf b.ptr)).1 }) ∧
      ∀ size ds, F.ActOk H k (.realloc (some b.ptr) size ds) →
        (∀ id, F.cur k ≠ some id →
          (F.exec H k (.realloc (some b.ptr) size ds)).2.arena id = F.arena id) ∧
        (∀ p, (F.exec H k (.realloc (some b.ptr) size ds)).1 = some p →
          ∃ ra ra', (F.view k).selected = some ra ∧
            (F.exec H k (.realloc (some b.ptr) size ds)).2.arena ra.id = some ra' ∧
            (ra.mode = .gc →
              ra'.used + (if b.home = .gc ra.id then msUsable H ra b.ptr else 0) =
                ra.used + msUsable H ra' p) ∧
            (ra.mode = .bump →
              Word.add ra'.bumpUsed (if p = b.ptr then ra.lastAllocAligned else 0) =
                Word.add ra.bumpUsed (Word.alignUp arenaAlign size))) ∧
        ((F.exec H k (.realloc (some b.ptr) size ds)).1 = none →
          (F.exec H k (.realloc (some b.ptr) size ds)).2.live = F.live ∧
          (∀ x, b.ptr ≤ x → x < b.hi →
            (F.exec H k (.realloc (some b.ptr) size ds)).2.mem x = F.mem x) ∧
          ∀ id, ((F.exec H k (.realloc (some b.ptr) size ds)).2.arena id).map
              (fun ra => (ra.used, ra.bumpUsed)) =
            (F.arena id).map fun ra => (ra.used, ra.bumpUsed)) := by
  have hI := hF.inv C
  refine ⟨fun ra hr hgc => hI.used_eq hr hgc, fun b hb k => ⟨fun id hid => ?_, fun ra hr hh => ?_,
    fun size ds hok => ?_⟩⟩
  · show (jdaFree H (F.view k) (some b.ptr)).find id = (F.view k).find id
    cases hgc : b.home.isGc with
    | false => rw [hI.free_noop hb hgc]
    | true =>
      obtain ⟨ra, hr, hh⟩ := hI.gc_owner hb hgc
      obtain ⟨-, st, -, hfree⟩ := hI.free_gc (k := k) hb hr hh
      rw [hfree, DualArena.find_put]
      cases hf : (F.view k).find id with
      | none => rfl
      | some r =>
        obtain ⟨-, rfl⟩ := DualArena.find_mem hf
        rw [Option.map_some, if_neg fun h => hid (hh.trans (congrArg Home.gc h.symm))]
  · obtain ⟨hle, st, hst, hfree⟩ := hI.free_gc (k := k) hb hr hh
    refine ⟨hle, st, hst, ?_⟩
    show (jdaFree H (F.view k) (some b.ptr)).find ra.id = _
    have L : Layout C (F.view k) (F.live ++ F.baseLive k) := hI.ok k k
    rw [hfree, DualArena.find_put, L.geo.find hr, Option.map_some, if_pos rfl]
  · have L : Layout C (F.view k) (F.live ++ F.baseLive k) := hI.ok k k
    have hc := jdaRealloc_charged (H := H) (L.ready rfl) b.ptr size ds
    obtain ⟨hreqs, hmem⟩ := exec_realloc (H := H) F k b.ptr size ds
    have harena : ∀ id, (F.exec H k (.realloc (some b.ptr) size ds)).2.arena id =
        (jdaRealloc H (F.view k) (some b.ptr) size ds).2.find id := fun id => by
      rw [arena, hreqs]
      rfl
    refine ⟨fun id hid => ?_, fun p hret => hI.realloc_charge hb hok hret, fun hret => ?_⟩
    · rw [harena]
      exact hc.find_ne hid
    · refine ⟨?_, fun x hx hx' => ?_, fun id => ?_⟩
      · show (afterAlloc H F.live _ size (jdaRealloc H (F.view k) (some b.ptr) size ds)).live = _
        rw [afterAlloc, show (jdaRealloc H (F.view k) (some b.ptr) size ds).1 = none from hret]
      · rw [hmem]
        exact hI.realloc_failed hb hok.1 hok.2.1 hret hx hx'
      · rw [harena]
        exact hc.used_eq hret id

end

end
end Family

/-! ## Runs -/

/-- The bump space, reporting for a pointer it does not know the size dlmalloc reads off a zero head
word: no bytes, less the overhead of a chunk with neither in-use bit. -/
def headSpace : Mspace BumpSpace :=
  { BumpSpace.mspace with
    usable := fun st p => ((st.blocks.find? fun b => b.1 = p).map Prod.snd).getD (2 ^ 64 - 16) }

/-- It meets the contract, which is about known blocks. -/
def headContract : headSpace.Contract where
  Inv := BumpSpace.Inv
  aligned := BumpSpace.contract.aligned
  usable_eq {st _ _} h b hb := by
    have heq := h.usable_eq hb
    have hpos := BumpSpace.contract.usable_pos h b hb
    simp only [BumpSpace.usable] at heq
    simp only [headSpace]
    cases hf : st.blocks.find? fun c => c.1 = b.1 with
    | none => rw [hf] at heq; simp at heq; omega
    | some c => rw [hf] at heq; exact heq
  usable_pos := BumpSpace.contract.usable_pos
  covered := BumpSpace.contract.covered
  disjoint := BumpSpace.contract.disjoint
  create := BumpSpace.contract.create
  malloc := BumpSpace.contract.malloc
  calloc := BumpSpace.contract.calloc
  realloc := BumpSpace.contract.realloc
  free := BumpSpace.contract.free

/-- A host of such spaces. -/
def headHost : Host BumpSpace := { bumpHost with ms := headSpace }

/-- `js_dual_arena_new2` with default sizes. -/
def headArena? : Option (DualArena BumpSpace) :=
  dualArenaNew2 headHost (fun _ => 0) 0 (some 65536) 0 0 [some ⟨2 ^ 25, 2 ^ 25 + 2 ^ 20⟩]

/-- The system it starts. -/
def headSys : Sys BumpSpace := ⟨headArena?.get rfl, []⟩

theorem headSys_reach : Reach headHost headSys := by
  have hnew : dualArenaNew2 headHost (fun _ => 0) 0 (some 65536) 0 0
      [some ⟨2 ^ 25, 2 ^ 25 + 2 ^ 20⟩] = some headSys.da :=
    (Option.some_get (show headArena?.isSome = true from rfl)).symm
  refine .init ⟨?_, ?_⟩ hnew
  · rintro _ ⟨⟩
    exact ⟨by decide, by decide, by decide +kernel, by decide +kernel⟩
  · rintro _ ⟨⟩
    exact .single ⟨by decide, by decide, by decide⟩ (by decide +kernel)

/-- A frozen dual arena as a family. -/
def Family.single {σ : Type} (S : Sys σ) : Family σ Unit :=
  { mem := S.da.mem, morecoreRa := S.da.morecoreRa, requests := S.da.requests, live := [],
    base := fun _ => S.da.base, baseLive := fun _ => S.live, cur := fun _ => S.da.cur,
    stateCell := fun _ => S.da.stateCell, dual := fun _ => () }

theorem Family.single_born {C : H.ms.Contract} {S : Sys σ}
    (h : ArenaJs.Reach H S) (hm : S.da.mode = .request)
    (hb : ∀ b ∈ S.live, b.home = .base) : (Family.single S).Born H fun _ => S where
  reach _ := h
  frozen _ := hm
  unused _ := hb
  base _ := rfl
  baseLive _ := rfl
  live := rfl
  requests _ hr := hr
  ids := (h.layout C).geo.ids
  bases _ _ _ hk := absurd rfl hk
  extents _ _ _ _ hne := absurd rfl hne
  mem _ _ _ := rfl

/-- The family of that one dual arena, frozen. -/
def headFamily : Family BumpSpace Unit := Family.single (exec headHost headSys .freeze).2

theorem headFamily_reach : headFamily.Reach headHost :=
  .init (Family.single_born (C := headContract)
    (headSys_reach.step (show Act.Ok headHost headSys .freeze from rfl)) rfl nofun)

/-- That family after a block of 100 bytes was taken from the first arena. -/
def headMalloc : Family BumpSpace Unit := (headFamily.exec headHost () (.malloc 100 [])).2

/-- The block is counted with its 112 usable bytes; a free takes them off again, and a reallocation
that the provider refuses leaves the counters as they are. -/
theorem owner_directed_malloc : headMalloc.Reach headHost ∧ ∃ b ∈ headMalloc.live,
    (headMalloc.arena 0).map (fun ra => (ra.used, ra.bumpUsed)) = some (112, 0) ∧
    ((headMalloc.exec headHost () (.free (some b.ptr))).2.arena 0).map RequestArena.used = some 0 ∧
    ((headMalloc.exec headHost () (.realloc (some b.ptr) (2 ^ 30) [])).2.arena 0).map
      (fun ra => (ra.used, ra.bumpUsed)) = some (112, 0) := by
  have hF : headMalloc.Reach headHost :=
    .step () (.malloc 100 []) headFamily_reach ⟨trivial, fun _ => .nil _⟩
  have hcount : (headMalloc.arena 0).map (fun ra => (ra.used, ra.bumpUsed)) = some (112, 0) := by
    decide +kernel
  let b : Block := ⟨33554976, 100, 33555088, .gc 0⟩
  have hb : b ∈ headMalloc.live := by decide +kernel
  obtain ⟨-, hfree, hrealloc⟩ := (Family.owner_directed headContract hF).2 b (.inl hb) ()
  refine ⟨hF, b, hb, hcount, ?_, ?_⟩
  · obtain ⟨ra, hra, -⟩ := Option.map_eq_some_iff.1 hcount
    have husable : ∀ ra ∈ headMalloc.requests, ra.id = 0 ∧ ra.used =
      msUsable headHost ra b.ptr := by
      decide +kernel
    have hmem := List.mem_of_find?_eq_some hra
    obtain ⟨hid, hused⟩ := husable ra hmem
    obtain ⟨-, st, -, hafter⟩ := hfree ra hmem (congrArg Home.gc hid.symm)
    rw [hid, hused] at hafter
    rw [hafter]
    exact congrArg some (Nat.sub_self _)
  · have hok : headMalloc.ActOk headHost () (.realloc (some b.ptr) (2 ^ 30) []) :=
      ⟨trivial, fun _ => .nil _, fun p hp => ⟨b, .inl hb, Option.some.inj hp⟩⟩
    obtain ⟨-, -, hkeep⟩ := (hrealloc _ _ hok).2.2 (by decide +kernel)
    rw [hkeep, hcount]

/-- Arena 0 in bump mode, 16 bytes short of its end; arena 1 right behind it. -/
def neighbours : Family BumpSpace Unit :=
  [.setMode .bump, .reset 0, .newRequest 1 0 [some ⟨2 ^ 25 + 262144, 2 ^ 25 + 2 ^ 20⟩],
    .malloc 261584 []].foldl (fun F act => (F.exec headHost () act).2) headFamily

theorem neighbours_reach : neighbours.Reach headHost := by
  have hoff : OfferOk ⟨2 ^ 25 + 262144, 2 ^ 25 + 2 ^ 20⟩ := ⟨by decide, by decide, by decide⟩
  have h1 := Family.Reach.step () (.setMode .bump) headFamily_reach trivial
  have h2 := Family.Reach.step () (.reset 0) h1 ⟨rfl, by decide +kernel⟩
  have h3 := Family.Reach.step () (.newRequest 1 0 [some ⟨2 ^ 25 + 262144, 2 ^ 25 + 2 ^ 20⟩]) h2
    ⟨by decide +kernel, fun ⟨⟩ => ⟨fun ra hr => .single hoff ?_, ?_, ?_⟩, .single hoff nofun⟩
  · refine .step () (.malloc 261584 []) h3
      ⟨(sizeOk_request rfl).2 fun ra hs hm => ?_, fun _ => .nil _⟩
    obtain ⟨hr, -⟩ := DualArena.selected_mem hs
    clear hs hm
    revert ra
    decide +kernel
  · revert ra
    decide +kernel
  · rintro s hs
    cases List.mem_singleton.1 hs
    decide +kernel
  · intro ra hs hm
    obtain ⟨hr, -⟩ := DualArena.selected_mem hs
    have hbump : ∀ ra ∈ ((headFamily.exec headHost () (.setMode .bump)).2.exec headHost ()
      (.reset 0)).2.requests, ra.mode = .bump := by decide +kernel
    cases (hbump ra hr).symm.trans hm

/-- `jda_malloc(SIZE_MAX)` from arena 0 returns the end of its extent, which is the start of arena
1: `ALIGN_UP` wraps to 0, and the header alone still fits. `jda_free` of that block takes it for a
block of arena 1 and charges it: the counter is 16, with no block of the arena alive. -/
theorem free_reaches_neighbour : neighbours.Reach headHost ∧ ∃ b,
    b ∈ (neighbours.exec headHost () (.malloc (2 ^ 64 - 1) [])).2.live ∧ b.home = .bump 0 ∧
    (((neighbours.exec headHost () (.malloc (2 ^ 64 - 1) [])).2.arena 1).map RequestArena.used =
      some 0) ∧
    ((((neighbours.exec headHost () (.malloc (2 ^ 64 - 1) [])).2.exec headHost ()
      (.free (some b.ptr))).2.arena 1).map RequestArena.used = some 16) ∧
    ∀ c ∈ ((neighbours.exec headHost () (.malloc (2 ^ 64 - 1) [])).2.exec headHost ()
      (.free (some b.ptr))).2.live, c.home ≠ .gc 1 :=
  ⟨neighbours_reach, ⟨2 ^ 25 + 262144, 2 ^ 64 - 1, 2 ^ 25 + 262144 + 2 ^ 64, .bump 0⟩, by
    decide +kernel, rfl,
    by decide +kernel, by decide +kernel, by decide +kernel⟩
end ArenaJs
