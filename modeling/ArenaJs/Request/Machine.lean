import ArenaJs.Request.State
import ArenaJs.Alloc.Life

/-!
# Runtimes in order

The request API over any number of frozen runtimes, each with any number of requests, and what a
runtime in order is (`RtOk`): its requests have distinct names and slots, and the state pointer is
the slot of the selected request, or the template. Selecting, freeing, creating and resetting
requests keep a runtime in order (`RtShape.select`, `RtOk.free`, `jsNewRequest_spec`,
`jsResetRequestArena_spec`), and freezing puts it in order (`PreFreeze.ok`).
-/

namespace ArenaJs

open Function (update update_of_ne update_self comp_apply)

variable {σ : Type}

/-! ## The machine -/

/-- A runtime. -/
abbrev RtId := Nat

/-- `JSRequestArena *`: an arena of some runtime's dual arena. -/
structure Req where
  owner : RtId
  id : ReqId
deriving DecidableEq

/-- The runtimes of a process. -/
abbrev Machine (σ : Type) := RtId → Runtime σ

variable (M : Machine σ) (r : RtId)

/-- `JS_CurrentRequest`. -/
def jsCurrentRequest : Option Req :=
  if (M r).isArena then (M r).da.cur.map (Req.mk r) else none

/-- `JS_EnterRequest`. -/
def jsEnterRequest (req : Option Req) : Option (Int × Machine σ) :=
  if (M r).isArena = false then some (-1, M)
  else match req with
    | none => some (-1, M)
    | some req =>
      match atJobBoundary (M r) with
      | none => none
      | some false => some (-1, M)
      | some true =>
        if req.owner ≠ r then some (-1, M)
        else some (0, update M r (jsSelectRequest (M r) (some req.id)))

/-- `JS_LeaveRequest`. -/
def jsLeaveRequest : Option (Int × Machine σ) :=
  if (M r).isArena = false then some (-1, M)
  else match atJobBoundary (M r) with
    | none => none
    | some false => some (-1, M)
    | some true => some (0, update M r (jsSelectRequest (M r) none))

/-- `js_request_arena_free`, which finds the dual arena through the request. -/
def freeReq (req : Req) : Machine σ :=
  update M req.owner
    { M req.owner with da := jsRequestArenaFree (M req.owner).da req.id }

/-- `JS_FreeRequest`. -/
def jsFreeRequest (req : Option Req) : Option (Int × Machine σ) :=
  if (M r).isArena = false then some (-1, M)
  else match req with
    | none => some (-1, M)
    | some req =>
      if jsCurrentRequest M r = some req then
        match jsLeaveRequest M r with
        | none => none
        | some (rc, M') => if rc < 0 then some (-1, M') else some (0, freeReq M' req)
      else some (0, freeReq M req)

/-! ## The invariant -/

/-- The names and slots of the live requests. -/
def DualArena.heads (da : DualArena σ) : List (ReqId × Nat) :=
  da.requests.map fun ra => (ra.id, ra.slot)

/-- What `RT_REQ(rt)` should be: the slot of the selected request, or the template. -/
def Runtime.expected (rt : Runtime σ) : Nat :=
  match rt.da.selected with
  | some ra => ra.slot
  | none => rt.templateAddr

/-- A runtime whose requests have distinct names and slots, apart from the template. -/
structure RtShape (rt : Runtime σ) : Prop where
  ids : rt.da.heads.Pairwise fun x y => x.1 ≠ y.1
  slots : rt.da.heads.Pairwise fun x y => x.2 ≠ y.2
  template : ∀ x ∈ rt.da.heads, x.2 ≠ rt.templateAddr

/-- A frozen runtime in order. -/
structure RtOk (rt : Runtime σ) : Prop extends RtShape rt where
  arena : rt.isArena = true
  mode : rt.da.mode = .request
  live : ∀ id, rt.da.cur = some id → ∃ x ∈ rt.da.heads, x.1 = id
  cell : rt.da.stateCell = some rt.expected

/-- A runtime about to be frozen: its first request is selected. -/
structure PreFreeze (rt : Runtime σ) : Prop extends RtShape rt where
  selected : ∃ ra, rt.da.selected = some ra

/-! ## Heads -/

section
variable {H : Host σ} {rt : Runtime σ} {da da' : DualArena σ} {ra : RequestArena σ} {id : ReqId}
variable {ds : List Decision} {m : Mem} {ra' : RequestArena σ} {cap : Nat}

theorem DualArena.mem_heads {x : ReqId × Nat} : x ∈ da.heads ↔
    ∃ ra ∈ da.requests, (ra.id, ra.slot) = x := List.mem_map

/-- Looking a request up by name, in the heads. -/
theorem DualArena.find_slot (da : DualArena σ) (id : ReqId) :
    (da.find id).map RequestArena.slot = (da.heads.find? fun x => x.1 = id).map Prod.snd := by
  simp only [find, heads, List.find?_map, Option.map_map]
  rfl

theorem DualArena.find_isSome (h : ∃ x ∈ da.heads, x.1 = id) : ∃ ra, da.find id = some ra := by
  obtain ⟨x, hx, rfl⟩ := h
  obtain ⟨ra, hr, rfl⟩ := DualArena.mem_heads.1 hx
  exact Option.isSome_iff_exists.1 (List.find?_isSome.2 ⟨ra, hr, by simp⟩)

theorem Runtime.expected_eq (rt : Runtime σ) : rt.expected =
    ((rt.da.cur.bind fun id => (rt.da.heads.find? fun x => x.1 = id).map Prod.snd)).getD
      rt.templateAddr := by
  simp only [← DualArena.find_slot, expected, DualArena.selected]
  cases rt.da.cur with
  | none => rfl
  | some id =>
    simp only [Option.bind_some]
    cases rt.da.find id <;> rfl

theorem RtShape.congr {rt' : Runtime σ} (h : RtShape rt) (hh : rt'.da.heads = rt.da.heads)
    (ht : rt'.templateAddr = rt.templateAddr) : RtShape rt' :=
  ⟨hh ▸ h.ids, hh ▸ h.slots, by rw [hh, ht]; exact h.template⟩

/-- The invariant reads the heads, the selection and the state cell only. -/
theorem RtOk.congr {rt' : Runtime σ} (h : RtOk rt) (ha : rt'.isArena = rt.isArena)
    (hm : rt'.da.mode = rt.da.mode) (hh : rt'.da.heads = rt.da.heads) (hc : rt'.da.cur = rt.da.cur)
    (hs : rt'.da.stateCell = rt.da.stateCell) (ht : rt'.templateAddr = rt.templateAddr) :
    RtOk rt' := by
  refine ⟨h.toRtShape.congr hh ht, ha.trans h.arena, hm.trans h.mode, ?_, ?_⟩
  · rw [hh, hc]; exact h.live
  · rw [hs, h.cell, Runtime.expected_eq, Runtime.expected_eq, hh, hc, ht]

/-- Storing an arena under its name with its head in place keeps the heads. -/
theorem DualArena.heads_put {ra0 : RequestArena σ}
    (hids : da.heads.Pairwise fun x y => x.1 ≠ y.1) (hr : ra0 ∈ da.requests) (hid : ra.id = ra0.id)
    (hslot : ra.slot = ra0.slot) : (da.put ra m).heads = da.heads := by
  simp only [heads, put, List.map_map]
  refine List.map_congr_left fun r hrm => ?_
  simp only [comp_apply]
  split
  · next he =>
    have hreq : da.requests.Pairwise fun r s => r.id ≠ s.id := by
      simpa only [heads, List.pairwise_map] using hids
    rw [hid, hslot, eq_of_id hreq hrm hr (he.trans hid)]
  · rfl

/-- Looking up a name other than the one taken out. -/
theorem find_others {i : ReqId} (hne : i ≠ id) (l : List (ReqId × Nat)) :
    ((l.filter fun x => x.1 ≠ id).find? fun x => x.1 = i) = l.find? fun x => x.1 = i := by
  rw [List.find?_filter]
  congr 1
  funext x
  by_cases hx : x.1 = i
  · simp [hx, hne]
  · simp [hx]

@[simp] theorem jsSelectRequest_cur (rt : Runtime σ) (cur : Option ReqId) :
    (jsSelectRequest rt cur).da.cur = cur := by
  unfold jsSelectRequest
  split <;> rfl

@[simp] theorem jsSelectRequest_requests (rt : Runtime σ) (cur : Option ReqId) :
    (jsSelectRequest rt cur).da.requests = rt.da.requests := by
  unfold jsSelectRequest
  split <;> rfl

theorem jsSelectRequest_mode (rt : Runtime σ) (cur : Option ReqId) :
    (jsSelectRequest rt cur).da.mode = rt.da.mode := by
  unfold jsSelectRequest
  split <;> rfl

/-- Selecting a live request, or none. -/
theorem RtShape.select (h : RtShape rt) (ha : rt.isArena = true) (hm : rt.da.mode = .request)
    {cur : Option ReqId} (hc : ∀ id, cur = some id → ∃ x ∈ rt.da.heads, x.1 = id) :
    RtOk (jsSelectRequest rt cur) := by
  cases cur with
  | none => exact ⟨⟨h.ids, h.slots, h.template⟩, ha, hm, nofun, rfl⟩
  | some id =>
    obtain ⟨ra, hf⟩ := DualArena.find_isSome (hc id rfl)
    refine ⟨⟨h.ids, h.slots, h.template⟩, ha, hm, ?_, ?_⟩
    · rintro i ⟨⟩
      exact hc id rfl
    · have hsel : (jsSelectRequest rt (some id)).da.selected = some ra := hf
      have hcell : (jsSelectRequest rt (some id)).da.stateCell = some ra.slot := by
        show (rt.da.find id).map RequestArena.slot = _
        rw [hf]
        rfl
      rw [hcell, Runtime.expected, hsel]

/-- Freeing a request that is not selected. -/
theorem RtOk.free (h : RtOk rt) (hne : rt.da.cur ≠ some id) :
    RtOk { rt with da := jsRequestArenaFree rt.da id } := by
  have hheads : (jsRequestArenaFree rt.da id).heads = rt.da.heads.filter fun x => x.1 ≠ id := by
    simp only [jsRequestArenaFree, if_neg hne, DualArena.heads, List.filter_map]
    rfl
  have heq : jsRequestArenaFree rt.da id =
      { rt.da with requests := rt.da.requests.filter fun ra => ra.id ≠ id } := by
    simp only [jsRequestArenaFree, if_neg hne]
  have hmem : ∀ x, x ∈ (jsRequestArenaFree rt.da id).heads ↔ x ∈ rt.da.heads ∧ x.1 ≠ id := by
    intro x
    rw [hheads]
    simp only [List.mem_filter, decide_eq_true_eq]
  refine ⟨⟨hheads ▸ h.ids.sublist List.filter_sublist,
    hheads ▸ h.slots.sublist List.filter_sublist, fun x hx => h.template x ((hmem x).1 hx).1⟩,
    h.arena, ?_, ?_, ?_⟩
  · rw [heq]; exact h.mode
  · intro i hi
    rw [heq] at hi
    obtain ⟨x, hx, rfl⟩ := h.live i hi
    exact ⟨x, (hmem x).2 ⟨hx, fun he => hne (he ▸ hi)⟩, rfl⟩
  · have hcell : (jsRequestArenaFree rt.da id).stateCell = rt.da.stateCell := by rw [heq]
    have hcur : (jsRequestArenaFree rt.da id).cur = rt.da.cur := by rw [heq]
    simp only [hcell, h.cell, Runtime.expected_eq, hcur, hheads]
    cases hc : rt.da.cur with
    | none => rfl
    | some i =>
      simp only [Option.bind_some, find_others (fun he => hne (hc.trans (congrArg some he)))]

/-! ## Creation and reset -/

theorem RequestArena.slot_congr (h : ra'.chunks.head? = ra.chunks.head?) :
    ra'.slot = ra.slot := by
  simp only [slot, headBuf, h]

/-- A reset keeps the name and the slot. -/
theorem requestArenaReset_head (mode : ArenaMode) (ra : RequestArena σ) (m : Mem) :
    (requestArenaReset H mode ra m).1.id = ra.id ∧
    (requestArenaReset H mode ra m).1.slot = ra.slot := by
  have hrel : (reqReleaseExtents ra).id = ra.id ∧
      (reqReleaseExtents ra).chunks.head? = ra.chunks.head? := by
    unfold reqReleaseExtents
    split
    · next h => exact ⟨rfl, rfl⟩
    · next h => rw [h]; exact ⟨rfl, rfl⟩
  unfold requestArenaReset
  cases mode with
  | base => exact ⟨hrel.1, RequestArena.slot_congr hrel.2⟩
  | request =>
    simp only [requestModeApply]
    split <;> exact ⟨hrel.1, RequestArena.slot_congr hrel.2⟩

/-- Resetting the selected request keeps names and slots. -/
theorem resetRequest_heads (hids : da.heads.Pairwise fun x y => x.1 ≠ y.1) :
    (resetRequest H da).heads = da.heads ∧ (resetRequest H da).cur = da.cur ∧
      (resetRequest H da).stateCell = da.stateCell ∧ (resetRequest H da).mode = da.mode := by
  unfold resetRequest jsRequestArenaReset
  split
  · exact ⟨rfl, rfl, rfl, rfl⟩
  · split
    · exact ⟨rfl, rfl, rfl, rfl⟩
    · next id _ _ ra hf =>
      obtain ⟨hid, hslot⟩ := requestArenaReset_head (H := H) da.mode ra da.mem
      exact ⟨DualArena.heads_put hids (DualArena.find_mem hf).1 hid hslot, rfl, rfl, rfl⟩

/-- The selected request after a mode switch and a reset: the others are as they were. -/
theorem resetRequest_others {r : RequestArena σ} (hr : r ∈ da.requests) (hne : da.cur ≠ some r.id) :
    r ∈ (resetRequest H da).requests := by
  unfold resetRequest jsRequestArenaReset
  split
  · exact hr
  · next id hc =>
    split
    · exact hr
    · next ra hf =>
      have hid := (requestArenaReset_head (H := H) da.mode ra da.mem).1
      obtain ⟨hm, hi⟩ := DualArena.find_mem hf
      refine (DualArena.mem_put ⟨ra, hm, hid.symm⟩).2 (.inr ⟨hr, fun he => hne ?_⟩)
      rw [hc, he, hid, hi]

theorem setRequestMode_heads (hids : da.heads.Pairwise fun x y => x.1 ≠ y.1) (mode : ReqMode) :
    (setRequestMode da mode).heads = da.heads ∧ (setRequestMode da mode).cur = da.cur ∧
      (setRequestMode da mode).mode = da.mode := by
  unfold setRequestMode
  split
  · exact ⟨rfl, rfl, rfl⟩
  · next ra hs =>
    have hr := (DualArena.selected_mem hs).1
    exact ⟨DualArena.heads_put hids hr rfl rfl, rfl, rfl⟩

theorem setRequestMode_others {r : RequestArena σ} (hr : r ∈ da.requests) (hne : da.cur ≠ some r.id)
    (mode : ReqMode) : r ∈ (setRequestMode da mode).requests := by
  unfold setRequestMode
  split
  · exact hr
  · next ra hs =>
    obtain ⟨hm, hc⟩ := DualArena.selected_mem hs
    have hex : ∃ r0 ∈ da.requests, r0.id = ({ ra with modeNext := mode } : RequestArena σ).id :=
      ⟨ra, hm, rfl⟩
    refine (DualArena.mem_put hex).2 (.inr ⟨hr, fun he => hne ?_⟩)
    rw [hc, he]

theorem requestModeApply_head (ra : RequestArena σ) (m : Mem) :
    (requestModeApply H ra m).1.id = ra.id ∧ (requestModeApply H ra m).1.slot = ra.slot := by
  unfold requestModeApply
  split <;> exact ⟨rfl, rfl⟩

/-- The slot of a new arena is in offered memory. -/
theorem requestArenaNew_head {mode : ArenaMode} {m m' : Mem}
    (h : requestArenaNew H mode id m cap ds = some (ra, m')) :
    ra.id = id ∧ ∃ s, some s ∈ ds ∧ s.Has ra.slot := by
  obtain ⟨c, s, held, extents, bound, hs, hw, -, hsz, h⟩ := requestArenaNew_cases h
  have hin : s.Has (c.buf + arenaPrefixLen) := by
    simp only [Span.Within, ReqChunk.span] at hw
    simp only [Span.Has, arenaPrefixLen] at *
    omega
  cases mode <;> obtain rfl := congrArg Prod.fst h <;> exact ⟨rfl, s, hs, hin⟩

/-- Every request but `x` keeps its arena and its state. -/
def Runtime.KeepsBut (x : Option ReqId) (rt rt' : Runtime σ) : Prop :=
  ∀ ra ∈ rt.da.requests, x ≠ some ra.id → ra ∈ rt'.da.requests ∧ rt'.slots ra.id = rt.slots ra.id

theorem Runtime.KeepsBut.refl (x : Option ReqId) (rt : Runtime σ) : rt.KeepsBut x rt :=
  fun _ hr _ => ⟨hr, rfl⟩

/-- `JS_RelocateReqState` with a request selected. -/
theorem relocateReqState_of_selected (rt : Runtime σ) (h : rt.da.selected = some ra) :
    relocateReqState rt = some { rt with
      slots := update rt.slots ra.id (freshReqState rt ra.mode),
      da := { rt.da with stateCell := some ra.slot } } := by
  unfold relocateReqState
  rw [h]

theorem DualArena.selected_of_heads (hc : da.cur = some id) (h : ∃ x ∈ da.heads, x.1 = id) :
    ∃ ra, da.selected = some ra ∧ ra.id = id := by
  obtain ⟨ra, hf⟩ := find_isSome h
  exact ⟨ra, by simp only [selected, hc, Option.bind_some, hf], (find_mem hf).2⟩

/-- A dual arena with one more request, which is selected, switched and reset. -/
theorem freshRequest_heads {ra : RequestArena σ} (mode : ReqMode)
    (hids : ((ra.id, ra.slot) :: da.heads).Pairwise fun x y => x.1 ≠ y.1)
    (hda : da' = resetRequest H (setRequestMode
      (selectRequest { da with requests := ra :: da.requests, mem := m } (some ra.id)) mode)) :
    da'.heads = (ra.id, ra.slot) :: da.heads ∧ da'.cur = some ra.id ∧ da'.mode = da.mode ∧
      ∀ r ∈ da.requests, r ∈ da'.requests := by
  generalize hda1 : selectRequest { da with requests := ra :: da.requests, mem := m } (some ra.id)
    = da1 at hda
  have hh1 : da1.heads = (ra.id, ra.slot) :: da.heads := by rw [← hda1]; rfl
  have hc1 : da1.cur = some ra.id := by rw [← hda1]; rfl
  have hm1 : da1.mode = da.mode := by rw [← hda1]; rfl
  obtain ⟨hh2, hc2, hm2⟩ := setRequestMode_heads (hh1 ▸ hids : da1.heads.Pairwise _) mode
  obtain ⟨hh3, hc3, -, hm3⟩ := resetRequest_heads (H := H)
    (hh2 ▸ hh1 ▸ hids : (setRequestMode da1 mode).heads.Pairwise _)
  subst hda
  refine ⟨hh3.trans (hh2.trans hh1), hc3.trans (hc2.trans hc1), hm3.trans (hm2.trans hm1), ?_⟩
  intro r hr
  have hne : ra.id ≠ r.id := (List.pairwise_cons.1 hids).1 (r.id, r.slot)
    (DualArena.mem_heads.2 ⟨r, hr, rfl⟩)
  have hcur : da1.cur ≠ some r.id := by rw [hc1]; exact fun he => hne (Option.some.inj he)
  have hr1 : r ∈ da1.requests := by rw [← hda1]; exact .tail _ hr
  exact resetRequest_others (setRequestMode_others hr1 hcur mode) (hc2.trans_ne hcur)

theorem jsNewRequest_none (ha : rt.isArena = true)
    (mode : ReqMode) (h : requestArenaNew H rt.da.mode id rt.da.mem cap ds = none) :
    jsNewRequest H rt cap mode id ds = (none, rt) := by
  unfold jsNewRequest jsRequestArenaNew
  rw [h, if_neg (by simp [ha])]

theorem jsNewRequest_some
    (ha : rt.isArena = true) (mode : ReqMode)
    (h : requestArenaNew H rt.da.mode id rt.da.mem cap ds = some (ra, m))
    (hda : da' = resetRequest H (setRequestMode
      (selectRequest { rt.da with requests := ra :: rt.da.requests, mem := m } (some id)) mode))
    (hsel : da'.selected = some ra') :
    jsNewRequest H rt cap mode id ds = (some id, jsSelectRequest { rt with
      slots := update rt.slots ra'.id (freshReqState { rt with da := da' } ra'.mode),
      da := { da' with stateCell := some ra'.slot } } rt.da.cur) := by
  unfold jsNewRequest jsRequestArenaNew
  rw [h, if_neg (by simp [ha])]
  simp only []
  rw [← hda, relocateReqState_of_selected { rt with da := da' } hsel]

/-- `JS_NewRequest` refuses, or adds a request in offered memory and selects the previous one
again. -/
theorem jsNewRequest_cases (h : RtShape rt) (ha : rt.isArena = true) (cap : Nat) (mode : ReqMode)
    (hid : ∀ ra ∈ rt.da.requests, ra.id ≠ id)
    (hds : ∀ s, some s ∈ ds → ¬ s.Has rt.templateAddr ∧ ∀ ra ∈ rt.da.requests, ¬ s.Has ra.slot) :
    jsNewRequest H rt cap mode id ds = (none, rt) ∨
    ∃ slot rt', jsNewRequest H rt cap mode id ds = (some id, jsSelectRequest rt' rt.da.cur) ∧
      rt'.da.heads = (id, slot) :: rt.da.heads ∧ RtShape rt' ∧ rt'.isArena = true ∧
      rt'.da.mode = rt.da.mode ∧ rt.KeepsBut (some id) rt' ∧ rt'.template = rt.template ∧
      rt'.templateAddr = rt.templateAddr ∧ ∃ (rt0 : Runtime σ) (m : ReqMode),
        rt'.slots id = freshReqState rt0 m ∧ rt0.template = rt.template := by
  cases hnew : requestArenaNew H rt.da.mode id rt.da.mem cap ds with
  | none => exact .inl (jsNewRequest_none ha mode hnew)
  | some x =>
    obtain ⟨ra, m⟩ := x
    obtain ⟨rfl, s, hs, hslot⟩ := requestArenaNew_head hnew
    have hids : ((ra.id, ra.slot) :: rt.da.heads).Pairwise fun x y => x.1 ≠ y.1 := by
      refine List.pairwise_cons.2 ⟨fun x hx => ?_, h.ids⟩
      obtain ⟨r, hr, rfl⟩ := DualArena.mem_heads.1 hx
      exact (hid r hr).symm
    have hslots : ((ra.id, ra.slot) :: rt.da.heads).Pairwise fun x y => x.2 ≠ y.2 := by
      refine List.pairwise_cons.2 ⟨fun x hx => ?_, h.slots⟩
      obtain ⟨r, hr, rfl⟩ := DualArena.mem_heads.1 hx
      exact fun he : ra.slot = r.slot => (hds s hs).2 r hr (he ▸ hslot)
    have htmpl : ∀ x ∈ (ra.id, ra.slot) :: rt.da.heads, x.2 ≠ rt.templateAddr :=
      List.forall_mem_cons.2 ⟨fun he => (hds s hs).1 (he ▸ hslot), h.template⟩
    generalize hda : resetRequest H (setRequestMode (selectRequest
      { rt.da with requests := ra :: rt.da.requests, mem := m } (some ra.id)) mode) = da'
    obtain ⟨hh, hc, hm, hoth⟩ := freshRequest_heads mode hids hda.symm
    have hnewest : ∃ x ∈ da'.heads, x.1 = ra.id :=
      ⟨(ra.id, ra.slot), by rw [hh]; exact .head _, rfl⟩
    obtain ⟨ra', hsel, hid'⟩ := DualArena.selected_of_heads hc hnewest
    refine .inr ⟨ra.slot, _, jsNewRequest_some ha mode hnew hda.symm hsel, hh,
      ⟨hh ▸ hids, hh ▸ hslots, hh ▸ htmpl⟩, ha, hm, fun r hr hne => ⟨hoth r hr, ?_⟩, rfl, rfl,
      _, ra'.mode, ?_, rfl⟩
    · refine update_of_ne (fun he => hne ?_) _ _
      rw [he, hid']
    · rw [hid']
      exact update_self _ _ _

theorem jsSelectRequest_heads (rt : Runtime σ) (cur : Option ReqId) :
    (jsSelectRequest rt cur).da.heads = rt.da.heads := by
  rw [DualArena.heads, jsSelectRequest_requests]
  rfl

/-- `JS_NewRequest` leaves the selection, the state pointer and every other request alone. -/
theorem jsNewRequest_spec (h : RtOk rt) (cap : Nat) (mode : ReqMode)
    (hid : ∀ ra ∈ rt.da.requests, ra.id ≠ id)
    (hds : ∀ s, some s ∈ ds → ¬ s.Has rt.templateAddr ∧ ∀ ra ∈ rt.da.requests, ¬ s.Has ra.slot) :
    let rt' := (jsNewRequest H rt cap mode id ds).2
    RtOk rt' ∧ rt.KeepsBut (some id) rt' ∧ rt'.da.cur = rt.da.cur ∧
      rt'.da.stateCell = rt.da.stateCell := by
  rcases jsNewRequest_cases (H := H) h.toRtShape h.arena cap mode hid hds with
    he | ⟨slot, rt', he, hh, hshape, ha, hm, hk, -, hta, -⟩
  · rw [he]
    exact ⟨h, .refl _ _, rfl, rfl⟩
  · rw [he]
    have hlive : ∀ i, rt.da.cur = some i → ∃ x ∈ rt'.da.heads, x.1 = i := by
      intro i hi
      obtain ⟨x, hx, hxi⟩ := h.live i hi
      exact ⟨x, by rw [hh]; exact .tail _ hx, hxi⟩
    have hok := hshape.select ha (hm.trans h.mode) hlive
    refine ⟨hok, fun r hr hne => ?_, jsSelectRequest_cur _ _, ?_⟩
    · exact ⟨by rw [jsSelectRequest_requests]; exact (hk r hr hne).1, (hk r hr hne).2⟩
    · -- the previous request is found behind the new one
      have hta' : (jsSelectRequest rt' rt.da.cur).templateAddr = rt.templateAddr := hta
      rw [hok.cell, h.cell, Runtime.expected_eq, Runtime.expected_eq, jsSelectRequest_cur,
        jsSelectRequest_heads, hh, hta']
      cases hc : rt.da.cur with
      | none => rfl
      | some i =>
        obtain ⟨x, hx, hxi⟩ := h.live i hc
        have hne : id ≠ i := by
          obtain ⟨r, hr, rfl⟩ := DualArena.mem_heads.1 hx
          exact fun hii => hid r hr (hxi.trans hii.symm)
        simp [decide_eq_false hne]

/-- The selected request of a runtime in order. -/
theorem RtOk.selected (h : RtOk rt) (hc : rt.da.cur = some id) :
    ∃ ra, rt.da.selected = some ra ∧ ra.id = id :=
  DualArena.selected_of_heads hc (h.live id hc)

/-- `JS_RelocateReqState` on the selected request. -/
theorem RtOk.relocate (rt : Runtime σ) (h : RtShape rt) (ha : rt.isArena = true)
    (hm : rt.da.mode = .request)
    (hs : rt.da.selected = some ra) :
    RtOk ((relocateReqState rt).getD rt) ∧ rt.KeepsBut (some ra.id)
      ((relocateReqState rt).getD rt) := by
  rw [relocateReqState_of_selected rt hs]
  obtain ⟨hmem, hcur⟩ := DualArena.selected_mem hs
  refine ⟨⟨⟨h.ids, h.slots, h.template⟩, ha, hm, ?_, ?_⟩, ?_⟩
  · intro i hi
    have he : some ra.id = some i := hcur.symm.trans hi
    exact ⟨(ra.id, ra.slot), DualArena.mem_heads.2 ⟨ra, hmem, rfl⟩, Option.some.inj he⟩
  · have hs' : ({ rt.da with stateCell := some ra.slot } : DualArena σ).selected = some ra := hs
    simp [Runtime.expected, hs']
  · intro r hr hne
    exact ⟨hr, update_of_ne (fun he => hne (congrArg some he.symm)) _ _⟩

/-- `JS_ResetRequestArena` leaves every request but the selected one alone. -/
theorem jsResetRequestArena_spec (h : RtOk rt) :
    RtOk (jsResetRequestArena H rt) ∧ rt.KeepsBut rt.da.cur (jsResetRequestArena H rt) := by
  unfold jsResetRequestArena
  split
  · exact ⟨h, .refl _ _⟩
  · next hne =>
    obtain ⟨id, hc⟩ := Option.ne_none_iff_exists'.1 hne
    obtain ⟨hh, hc', -, hm⟩ := resetRequest_heads (H := H) h.ids
    obtain ⟨ra, hs, hid⟩ := DualArena.selected_of_heads (hc'.trans hc) (hh ▸ h.live id hc)
    obtain ⟨hok, hk⟩ := RtOk.relocate { rt with da := resetRequest H rt.da }
      (h.toRtShape.congr hh rfl) h.arena (hm.trans h.mode) hs
    refine ⟨hok, fun r hr hne => hk r (resetRequest_others hr hne) ?_⟩
    rw [hid, ← hc]
    exact hne

/-- `js_dual_arena_freeze` keeps names and slots. -/
theorem applyModes_heads (ras : List (RequestArena σ)) (m : Mem) :
    ((applyModes H ras m).1.map fun ra => (ra.id, ra.slot)) = ras.map fun ra =>
    (ra.id, ra.slot) := by
  induction ras generalizing m with
  | nil => rfl
  | cons ra ras ih =>
    obtain ⟨hid, hslot⟩ := requestModeApply_head (H := H) ra m
    simp [applyModes, hid, hslot, ih]

/-- Freezing puts a runtime in order. -/
theorem PreFreeze.ok (h : PreFreeze rt) : RtOk (jsFreezeRuntime H rt) := by
  have hh : (freeze H rt.da).heads = rt.da.heads := applyModes_heads _ _
  obtain ⟨ra0, hs0⟩ := h.selected
  obtain ⟨hm0, hc0⟩ := DualArena.selected_mem hs0
  have hc : (freeze H rt.da).cur = some ra0.id := hc0
  obtain ⟨ra, hs, -⟩ := DualArena.selected_of_heads hc
    ⟨(ra0.id, ra0.slot), hh ▸ DualArena.mem_heads.2 ⟨ra0, hm0, rfl⟩, rfl⟩
  exact (RtOk.relocate { rt with
    da := { freeze H rt.da with stateCell := some rt.templateAddr }, isArena := true }
    (h.toRtShape.congr hh rfl) rfl rfl hs).1

/-! ## The state pointer -/

section
variable (h : RtOk rt) (hs : rt.da.selected = some ra)
include h hs

/-- The state of the entered request. -/
theorem RtOk.find_slot : (rt.da.requests.find? fun r => r.slot = ra.slot) = some ra := by
  have hmem := (DualArena.selected_mem hs).1
  refine find?_of_unique hmem (by simp) fun r hr hslot => ?_
  have hreq : rt.da.requests.Pairwise fun r s => r.slot ≠ s.slot := by
    simpa only [DualArena.heads, List.pairwise_map] using h.slots
  have : Std.Symm fun r s : RequestArena σ => r.slot ≠ s.slot := ⟨fun _ _ h => h.symm⟩
  by_contra hne
  exact hreq.forall hr hmem hne (by simpa using hslot)

theorem RtOk.slot_ne : ra.slot ≠ rt.templateAddr :=
  h.template (ra.id, ra.slot) (DualArena.mem_heads.2 ⟨ra, (DualArena.selected_mem hs).1, rfl⟩)

theorem RtOk.cell_selected : rt.da.stateCell = some ra.slot := by
  rw [h.cell, Runtime.expected, hs]

theorem RtOk.reqState_selected : rt.reqState = some (rt.slots ra.id) := by
  simp [Runtime.reqState, h.cell_selected hs, Runtime.stateAt, if_neg (h.slot_ne hs),
    h.find_slot hs]

end

/-- The current state of a runtime in order: the entered request's, or the template. -/
theorem RtOk.reqState_eq (h : RtOk rt) : rt.reqState =
    some (match rt.da.cur with
      | some id => rt.slots id
      | none => rt.template) := by
  cases hc : rt.da.cur with
  | none =>
    have hs : rt.da.selected = none := by simp only [DualArena.selected, hc, Option.bind_none]
    simp [Runtime.reqState, h.cell, Runtime.expected, hs, Runtime.stateAt]
  | some id =>
    obtain ⟨ra, hs, rfl⟩ := h.selected hc
    exact h.reqState_selected hs

/-- A JS frame of the runtime is live. -/
def FrameLive (rt : Runtime σ) : Prop := ∃ s, rt.reqState = some s ∧ s.currentStackFrame ≠ none

/-- `js_at_job_boundary` is whether no frame is live. -/
theorem RtOk.atJobBoundary (h : RtOk rt) :
    FrameLive rt ∧ atJobBoundary rt = some false ∨ ¬ FrameLive rt ∧ atJobBoundary rt =
      some true := by
  obtain ⟨s, hs⟩ : ∃ s, rt.reqState = some s := ⟨_, h.reqState_eq⟩
  simp only [FrameLive, ArenaJs.atJobBoundary, hs, Option.map_some]
  cases hf : s.currentStackFrame with
  | none => exact .inr ⟨by rintro ⟨_, ⟨⟩, h⟩; exact h hf, rfl⟩
  | some f => exact .inl ⟨⟨s, rfl, by rw [hf]; exact nofun⟩, rfl⟩

end

end ArenaJs
