import ArenaJs.Request.Machine
import ArenaJs.Alloc.Safety

/-!
# The life of requests

An event (`Ev`) is a call of the request API, from the host or from a callback inside JS, or JS
running in the entered request. `LifeReach` contains the states of runs whose every event meets what
the API asks of its callers (`Ev.Ok`) and in which `JS_FreeRequest` is never used in the two ways it
does not guard against (`FreeOk`): on a request of another runtime, and, from inside JS, on a
request that is not the entered one.

Every state of such a run is in order (`LifeReach.ok`), and `request_lifecycle` collects what each
call leaves alone and when it refuses.
-/

namespace ArenaJs

open Function (update update_of_ne update_self)

variable {σ : Type}

/-! ## Events -/

/-- An event. `engine` is JS running in the entered request: it leaves the request's state as `st`
and its arena as `ra`. -/
inductive Ev (σ : Type) where
  | newRequest (r : RtId) (cap : Nat) (mode : ReqMode) (id : ReqId) (ds : List Decision)
  | enterRequest (r : RtId) (req : Option Req)
  | leaveRequest (r : RtId)
  | freeRequest (r : RtId) (req : Option Req)
  | resetRequestArena (r : RtId)
  | engine (r : RtId) (st : JSRequestState) (ra : RequestArena σ) (m : Mem)

/-- The return code of an event and the state it leaves; `none` is a NULL dereference. -/
def step (H : Host σ) (M : Machine σ) : Ev σ → Option (Int × Machine σ)
  | .newRequest r cap mode id ds =>
    let x := jsNewRequest H (M r) cap mode id ds
    some (if x.1.isSome then 0 else -1, update M r x.2)
  | .enterRequest r req => jsEnterRequest M r req
  | .leaveRequest r => jsLeaveRequest M r
  | .freeRequest r req => jsFreeRequest M r req
  | .resetRequestArena r => some (0, update M r (jsResetRequestArena H (M r)))
  | .engine r st ra m =>
    some (0, update M r { M r with da := (M r).da.put ra m,
                                            slots := update (M r).slots ra.id st })

/-! ## Assumptions -/

/-- A request that was not freed. -/
def Req.Live (M : Machine σ) (req : Req) : Prop := ∃ ra ∈ (M req.owner).da.requests, ra.id = req.id

/-- What the API asks of its callers: requests passed in are live, offered memory is not in use, the
reset happens with no JS frame live, and JS runs in an entered request, whose slot stays put. -/
def Ev.Ok (M : Machine σ) : Ev σ → Prop
  | .newRequest r _ _ id ds => (∀ ra ∈ (M r).da.requests, ra.id ≠ id) ∧
      ∀ s, some s ∈ ds → ¬ s.Has (M r).templateAddr ∧ ∀ ra ∈ (M r).da.requests, ¬ s.Has ra.slot
  | .enterRequest _ req | .freeRequest _ req => ∀ q, req = some q → q.Live M
  | .leaveRequest _ => True
  | .resetRequestArena r => ¬ FrameLive (M r)
  | .engine r _ ra _ => ∃ ra0, (M r).da.selected = some ra0 ∧ ra.id = ra0.id ∧ ra.slot = ra0.slot

/-- What `JS_FreeRequest` does not check: the request is the runtime's own, and from inside JS it is
the entered one. -/
def FreeOk (M : Machine σ) : Ev σ → Prop
  | .freeRequest r (some req) =>
      req.owner = r ∧ (FrameLive (M r) → jsCurrentRequest M r = some req)
  | _ => True

/-- The states reached from freshly frozen runtimes by runs whose every event is `Ok` and
`FreeOk`. -/
inductive LifeReach (H : Host σ) : Machine σ → Prop
  | init {M : Machine σ} : (∀ r, ∃ rt, PreFreeze rt ∧ M r = jsFreezeRuntime H rt) → LifeReach H M
  | step {M M' : Machine σ} {ev : Ev σ} {rc : Int} : LifeReach H M → ev.Ok M → FreeOk M ev →
      step H M ev = some (rc, M') → LifeReach H M'

/-! ## Steps -/

/-- Every request but `x` keeps its arena and its state. -/
def KeepsBut (x : Option Req) (M M' : Machine σ) : Prop :=
  ∀ r, ∀ ra ∈ (M r).da.requests, x ≠ some ⟨r, ra.id⟩ →
    ra ∈ (M' r).da.requests ∧ (M' r).slots ra.id = (M r).slots ra.id

/-- The request a call is about. -/
def Ev.subject (M : Machine σ) : Ev σ → Option Req
  | .newRequest r _ _ id _ => some ⟨r, id⟩
  | .enterRequest _ _ | .leaveRequest _ => none
  | .freeRequest _ req => req
  | .resetRequestArena r => (M r).da.cur.map (Req.mk r)
  | .engine r _ ra _ => some ⟨r, ra.id⟩

/-- When the API documents a refusal: a frame is live, or the request is another runtime's. -/
def Ev.Refused (M : Machine σ) : Ev σ → Prop
  | .enterRequest r req | .freeRequest r req =>
      FrameLive (M r) ∨ ∃ q, req = some q ∧ q.owner ≠ r
  | .leaveRequest r => FrameLive (M r)
  | _ => False

/-- What a step guarantees. -/
structure StepOk (M : Machine σ) (ev : Ev σ) (rc : Int) (M' : Machine σ) : Prop where
  ok : ∀ r, RtOk (M' r)
  keeps : KeepsBut (ev.subject M) M M'
  stays : ∀ r cap mode id ds, ev = .newRequest r cap mode id ds →
    (M' r).da.cur = (M r).da.cur ∧ (M' r).da.stateCell = (M r).da.stateCell
  refused : ev.Refused M → rc = -1 ∧ M' = M

section
variable {H : Host σ} {M M' : Machine σ} {ev : Ev σ} {rc : Int} {r : RtId} {rt : Runtime σ}

/-- A property of every runtime, of which one is changed. -/
theorem forall_update {p : Runtime σ → Prop} (h : ∀ r, p (M r)) (hr : p rt) :
    ∀ s, p (update M r rt s) :=
  (Function.forall_update_iff M fun _ => p).2 ⟨hr, fun s _ => h s⟩

theorem KeepsBut.refl (x : Option Req) (M : Machine σ) : KeepsBut x M M :=
  fun _ _ hr _ => ⟨hr, rfl⟩

/-- A call that touches one runtime. -/
theorem KeepsBut.update {x : Option Req} {y : Option ReqId} (h : (M r).KeepsBut y rt)
    (hx : ∀ i, y = some i → x = some ⟨r, i⟩) : KeepsBut x M (update M r rt) := by
  intro s ra hra hne
  by_cases hs : s = r
  · subst hs
    rw [update_self]
    exact h ra hra fun hy => hne (hx _ hy)
  · rw [update_of_ne hs]
    exact ⟨hra, rfl⟩

/-- A call that refuses. -/
theorem StepOk.refuse (h : ∀ r, RtOk (M r))
    (hn : ∀ r cap mode id ds, ev ≠ .newRequest r cap mode id ds) :
    StepOk M ev (-1) M :=
  ⟨h, .refl _ _, fun _ _ _ _ _ he => absurd he (hn _ _ _ _ _), fun _ => ⟨rfl, rfl⟩⟩

theorem selectRequest_keeps (rt : Runtime σ) (cur : Option ReqId) :
    rt.KeepsBut none (jsSelectRequest rt cur) := fun _ hr _ =>
  ⟨by rw [jsSelectRequest_requests]; exact hr, rfl⟩

/-- `JS_EnterRequest`. -/
theorem jsEnterRequest_step (h : ∀ r, RtOk (M r)) {req : Option Req}
    (hl : ∀ q, req = some q → q.Live M) :
    ∃ rc M', jsEnterRequest M r req = some (rc, M') ∧ StepOk M (.enterRequest r req) rc M' := by
  unfold jsEnterRequest
  rw [if_neg (by simp [(h r).arena])]
  cases req with
  | none => exact ⟨_, _, rfl, .refuse h nofun⟩
  | some q =>
    rcases (h r).atJobBoundary with ⟨-, hb⟩ | ⟨hnl, hb⟩
    · exact ⟨-1, M, by simp only [hb], .refuse h nofun⟩
    · simp only [hb]
      split
      · exact ⟨-1, M, rfl, .refuse h nofun⟩
      · next ho =>
        have ho : q.owner = r := not_not.1 ho
        obtain ⟨ra, hra, hid⟩ := hl q rfl
        have hok : RtOk (jsSelectRequest (M r) (some q.id)) := by
          refine (h r).toRtShape.select (h r).arena (h r).mode ?_
          rintro i ⟨⟩
          exact ⟨(ra.id, ra.slot), DualArena.mem_heads.2 ⟨ra, ho ▸ hra, rfl⟩, hid⟩
        refine ⟨_, _, rfl, forall_update h hok, .update (selectRequest_keeps _ _) nofun, nofun, ?_⟩
        rintro (hf | ⟨q', ⟨⟩, hne⟩)
        · exact absurd hf hnl
        · exact absurd ho hne

/-- `JS_LeaveRequest`. -/
theorem jsLeaveRequest_step (h : ∀ r, RtOk (M r)) :
    FrameLive (M r) ∧ jsLeaveRequest M r = some (-1, M) ∨
    ¬ FrameLive (M r) ∧ RtOk (jsSelectRequest (M r) none) ∧
      jsLeaveRequest M r = some (0, update M r (jsSelectRequest (M r) none)) := by
  unfold jsLeaveRequest
  rw [if_neg (by simp [(h r).arena])]
  rcases (h r).atJobBoundary with ⟨hl, hb⟩ | ⟨hnl, hb⟩
  · exact .inl ⟨hl, by simp only [hb]⟩
  · exact .inr ⟨hnl, (h r).toRtShape.select (h r).arena (h r).mode nofun, by simp only [hb]⟩

/-- Freeing a request of a runtime that has it not selected. -/
theorem freeReq_ok (h : ∀ r, RtOk (M r)) (req : Req) (hne : (M req.owner).da.cur ≠ some req.id) :
    (∀ r, RtOk (freeReq M req r)) ∧ KeepsBut (some req) M (freeReq M req) := by
  refine ⟨forall_update h ((h _).free hne), .update (y := some req.id) ?_ ?_⟩
  · intro ra hra hid
    refine ⟨?_, rfl⟩
    simp only [jsRequestArenaFree, if_neg hne, List.mem_filter, decide_eq_true_eq]
    exact ⟨hra, fun he => hid (congrArg some he.symm)⟩
  · rintro i ⟨⟩
    rfl

theorem KeepsBut.trans_none {x : Option Req} {M'' : Machine σ} (h : KeepsBut none M M')
    (h' : KeepsBut x M' M'') : KeepsBut x M M'' := by
  intro r ra hra hne
  obtain ⟨hm, hs⟩ := h r ra hra nofun
  obtain ⟨hm', hs'⟩ := h' r ra hm hne
  exact ⟨hm', hs'.trans hs⟩

theorem jsCurrentRequest_eq (h : RtOk (M r)) (req : Req) :
    jsCurrentRequest M r = some req ↔ req.owner = r ∧ (M r).da.cur = some req.id := by
  unfold jsCurrentRequest
  rw [if_pos h.arena]
  obtain ⟨o, i⟩ := req
  cases (M r).da.cur with
  | none => simp
  | some j => simp [eq_comm]

/-- `JS_FreeRequest`, with what it does not check. -/
theorem jsFreeRequest_step (h : ∀ r, RtOk (M r)) {req : Option Req}
    (hf : FreeOk M (.freeRequest r req)) :
    ∃ rc M', jsFreeRequest M r req = some (rc, M') ∧ StepOk M (.freeRequest r req) rc M' := by
  unfold jsFreeRequest
  rw [if_neg (by simp [(h r).arena])]
  cases req with
  | none => exact ⟨_, _, rfl, .refuse h nofun⟩
  | some q =>
    obtain ⟨rfl, hcur⟩ := hf
    simp only []
    split
    · next he =>
      rcases jsLeaveRequest_step (r := q.owner) h with ⟨hl, hleave⟩ | ⟨hnl, hok, hleave⟩
      · exact ⟨-1, M, by simp only [hleave]; rfl, .refuse h nofun⟩
      · simp only [hleave]
        have hsel : KeepsBut none M (update M q.owner (jsSelectRequest (M q.owner) none)) :=
          .update (selectRequest_keeps _ _) nofun
        obtain ⟨hok', hk⟩ := freeReq_ok (forall_update h hok) q
          (by rw [update_self, jsSelectRequest_cur]; exact nofun)
        refine ⟨_, _, rfl, hok', hsel.trans_none hk, nofun, ?_⟩
        rintro (hf | ⟨q', ⟨⟩, hne⟩)
        · exact absurd hf hnl
        · exact absurd rfl hne
    · next he =>
      have hne : (M q.owner).da.cur ≠ some q.id := fun hc =>
        he ((jsCurrentRequest_eq (h _) q).2 ⟨rfl, hc⟩)
      obtain ⟨hok, hk⟩ := freeReq_ok h q hne
      refine ⟨_, _, rfl, hok, hk, nofun, ?_⟩
      rintro (hf | ⟨q', ⟨⟩, hne⟩)
      · exact absurd (hcur hf) he
      · exact absurd rfl hne

/-- Without it, `JS_FreeRequest` frees. -/
theorem jsFreeRequest_unchecked (h : ∀ r, RtOk (M r)) {req : Option Req}
    (hf : ¬ FreeOk M (.freeRequest r req)) :
    ∃ M', jsFreeRequest M r req = some (0, M') ∧ (Ev.freeRequest r req : Ev σ).Refused M := by
  unfold jsFreeRequest
  rw [if_neg (by simp [(h r).arena])]
  cases req with
  | none => exact absurd trivial hf
  | some q =>
    have hne : jsCurrentRequest M r ≠ some q := fun he =>
      hf ⟨((jsCurrentRequest_eq (h r) q).1 he).1, fun _ => he⟩
    simp only [if_neg hne]
    refine ⟨_, rfl, ?_⟩
    by_cases ho : q.owner = r
    · exact .inl (by_contra fun hl => hf ⟨ho, fun hl' => absurd hl' hl⟩)
    · exact .inr ⟨q, rfl, ho⟩

/-- A step of a machine in order. -/
theorem step_ok (h : ∀ r, RtOk (M r)) (hok : ev.Ok M) (hf : FreeOk M ev) :
    ∃ rc M', step H M ev = some (rc, M') ∧ StepOk M ev rc M' := by
  cases ev with
  | newRequest r cap mode id ds =>
    obtain ⟨hr, hk, hc, hs⟩ := jsNewRequest_spec (H := H) (h r) cap mode hok.1 hok.2
    refine ⟨_, _, rfl, forall_update h hr, .update hk ?_, ?_, False.elim⟩
    · rintro i ⟨⟩; rfl
    · rintro r' cap' mode' id' ds' ⟨⟩
      rw [update_self]
      exact ⟨hc, hs⟩
  | enterRequest r req => exact jsEnterRequest_step h hok
  | leaveRequest r =>
    rcases jsLeaveRequest_step h with ⟨-, he⟩ | ⟨hnl, hr, he⟩
    · exact ⟨_, _, he, .refuse h nofun⟩
    · exact ⟨_, _, he, forall_update h hr, .update (selectRequest_keeps _ _) nofun, nofun,
        fun hl => absurd hl hnl⟩
  | freeRequest r req => exact jsFreeRequest_step h hf
  | resetRequestArena r =>
    obtain ⟨hr, hk⟩ := jsResetRequestArena_spec (H := H) (h r)
    refine ⟨_, _, rfl, forall_update h hr, .update hk fun i hi => ?_, nofun, False.elim⟩
    simp [Ev.subject, hi]
  | engine r st ra m =>
    obtain ⟨ra0, hs, hid, hslot⟩ := hok
    obtain ⟨hmem, hcur⟩ := DualArena.selected_mem hs
    have hheads := DualArena.heads_put (m := m) (h r).ids hmem hid hslot
    refine ⟨_, _, rfl, forall_update h ((h r).congr rfl rfl hheads rfl rfl rfl),
      .update (y := some ra.id) ?_ ?_, nofun, False.elim⟩
    · intro r' hr' hne
      exact ⟨(DualArena.mem_put ⟨ra0, hmem, hid.symm⟩).2
        (.inr ⟨hr', fun he => hne (congrArg some he.symm)⟩),
        update_of_ne (fun he => hne (congrArg some he.symm)) _ _⟩
    · rintro i ⟨⟩; rfl

/-- Every runtime of a reachable machine is in order. -/
theorem LifeReach.ok (h : LifeReach H M) : ∀ r, RtOk (M r) := by
  induction h with
  | init hM =>
    intro r
    obtain ⟨rt, hpre, hr⟩ := hM r
    exact hr ▸ hpre.ok
  | step _ hok hf hstep ih =>
    obtain ⟨rc, M', hstep', hs⟩ := step_ok ih hok hf
    rw [hstep] at hstep'
    cases hstep'
    exact hs.ok

/-- In every run whose frees are of the calling runtime's own requests, and of the entered one when
made from inside JS: the state pointer is the slot of the selected request or the template, before
and after every call; `JS_NewRequest` leaves the entered request entered; a call leaves every
request but its own as it was; and enter, leave and free refuse, with no effect, while a frame is
live or when given another runtime's request. A free outside that condition should be refused and
is not. -/
theorem request_lifecycle (h : LifeReach H M) (hok : ev.Ok M) :
    (∀ r, (M r).da.stateCell = some (M r).expected) ∧
    ∃ rc M', step H M ev = some (rc, M') ∧
      (FreeOk M ev →
        (∀ r, (M' r).da.stateCell = some (M' r).expected) ∧
        (∀ r cap mode id ds, ev = .newRequest r cap mode id ds →
          (M' r).da.cur = (M r).da.cur ∧ (M' r).da.stateCell = (M r).da.stateCell) ∧
        KeepsBut (ev.subject M) M M' ∧
        (ev.Refused M → rc = -1 ∧ M' = M)) ∧
      (¬ FreeOk M ev → ev.Refused M ∧ rc = 0) := by
  have hM := h.ok
  refine ⟨fun r => (hM r).cell, ?_⟩
  by_cases hf : FreeOk M ev
  · obtain ⟨rc, M', hstep, hs⟩ := step_ok (H := H) hM hok hf
    exact ⟨rc, M', hstep, fun _ => ⟨fun r => (hs.ok r).cell, hs.stays, hs.keeps, hs.refused⟩,
      fun hn => absurd hf hn⟩
  · cases ev with
    | freeRequest r req =>
      obtain ⟨M', hstep, hr⟩ := jsFreeRequest_unchecked hM hf
      exact ⟨0, M', hstep, fun hp => absurd hp hf, fun _ => ⟨hr, rfl⟩⟩
    | newRequest | enterRequest | leaveRequest | resetRequestArena | engine =>
      exact absurd trivial hf

/-- In such a run the entered request was not freed, and no two requests of a runtime share a name
or a slot. -/
theorem entered_live (h : LifeReach H M) (r : RtId) :
    (∀ id, (M r).da.cur = some id → (⟨r, id⟩ : Req).Live M) ∧ RtShape (M r) := by
  refine ⟨fun id hc => ?_, (h.ok r).toRtShape⟩
  obtain ⟨x, hx, rfl⟩ := (h.ok r).live id hc
  obtain ⟨ra, hra, rfl⟩ := List.mem_map.1 hx
  exact ⟨ra, hra, rfl⟩

end

/-! ## Two runtimes -/

/-- A runtime about to be frozen, over the default arenas. -/
def bumpRuntime : Runtime BumpSpace :=
  { isArena := false, da := bumpSys.da, template := default, templateAddr := 4096, atomSize := 0,
    mallocGcThreshold := 0, slots := fun _ => default }

/-- Runtimes that were just frozen; each has its first request, named 0, entered. -/
def frozenMachine : Machine BumpSpace := fun _ => jsFreezeRuntime bumpHost bumpRuntime

theorem frozenMachine_reach : LifeReach bumpHost frozenMachine := by
  refine .init fun _ => ⟨bumpRuntime, ⟨⟨?_, ?_, ?_⟩, ?_⟩, rfl⟩
  · decide +kernel
  · decide +kernel
  · decide +kernel
  · exact ⟨_, (Option.some_get (show bumpRuntime.da.selected.isSome = true from rfl)).symm⟩

theorem frozenMachine_live (r : RtId) : (⟨r, 0⟩ : Req).Live frozenMachine := by
  show ∃ ra ∈ (jsFreezeRuntime bumpHost bumpRuntime).da.requests, ra.id = 0
  decide +kernel

/-- Entering another runtime's request right after the freeze. -/
theorem request_lifecycle_frozen : ∃ rc M',
    step bumpHost frozenMachine (.enterRequest 1 (some ⟨0, 0⟩)) = some (rc, M') ∧ rc = -1 ∧
      M' = frozenMachine := by
  have hok : (Ev.enterRequest 1 (some ⟨0, 0⟩) : Ev BumpSpace).Ok frozenMachine := by
    rintro q ⟨⟩
    exact frozenMachine_live 0
  obtain ⟨-, rc, M', hstep, hf, -⟩ := request_lifecycle frozenMachine_reach hok
  obtain ⟨-, -, -, hr⟩ := hf trivial
  exact ⟨rc, M', hstep, hr (.inr ⟨_, rfl, by decide⟩)⟩

/-- The state an event leaves. -/
def after (M : Machine BumpSpace) (ev : Ev BumpSpace) : Machine BumpSpace :=
  ((step bumpHost M ev).map Prod.snd).getD M

theorem LifeReach.after {M : Machine BumpSpace} {ev : Ev BumpSpace} (h : LifeReach bumpHost M)
    (hok : ev.Ok M) (hf : FreeOk M ev) : LifeReach bumpHost (after M ev) := by
  obtain ⟨rc, M', hstep, -⟩ := step_ok (H := bumpHost) h.ok hok hf
  have heq : ArenaJs.after M ev = M' := by simp [ArenaJs.after, hstep]
  exact heq ▸ .step h hok hf hstep

/-- Runtime 0 makes a second request, enters it and frees the first one. -/
def newMachine : Machine BumpSpace :=
  after frozenMachine (.newRequest 0 0 .gc 1 [some ⟨2 ^ 26, 2 ^ 26 + 2 ^ 20⟩])

def enteredMachine : Machine BumpSpace := after newMachine (.enterRequest 0 (some ⟨0, 1⟩))

def swappedMachine : Machine BumpSpace := after enteredMachine (.freeRequest 0 (some ⟨0, 0⟩))

theorem swappedMachine_reach : LifeReach bumpHost swappedMachine := by
  have hnew : LifeReach bumpHost newMachine := by
    refine frozenMachine_reach.after ⟨by decide +kernel, fun s hs => ?_⟩ trivial
    cases List.mem_singleton.1 hs
    exact ⟨by decide +kernel, by decide +kernel⟩
  have henter : LifeReach bumpHost enteredMachine := by
    refine hnew.after ?_ trivial
    rintro _ ⟨⟩
    show ∃ ra ∈ (newMachine 0).da.requests, ra.id = 1
    decide +kernel
  have hidle : ∀ s ∈ (enteredMachine 0).reqState, s.currentStackFrame = none := by decide +kernel
  have hframe : ¬ FrameLive (enteredMachine 0) := by
    rintro ⟨s, hs, hne⟩
    exact hne (hidle s hs)
  refine henter.after ?_ ⟨rfl, fun hl => absurd hl hframe⟩
  rintro _ ⟨⟩
  show ∃ ra ∈ (enteredMachine 0).da.requests, ra.id = 0
  decide +kernel

/-- The request that is entered then was not freed; the first one was. -/
theorem entered_live_swapped : (swappedMachine 0).da.cur = some 1 ∧
    (⟨0, 1⟩ : Req).Live swappedMachine ∧ ¬ (⟨0, 0⟩ : Req).Live swappedMachine := by
  refine ⟨by decide +kernel, (entered_live swappedMachine_reach 0).1 1 (by decide +kernel), ?_⟩
  show ¬ ∃ ra ∈ (swappedMachine 0).da.requests, ra.id = 0
  decide +kernel

/-- `JS_FreeRequest` of one runtime, given the entered request of another: it returns 0, and the
other runtime's state pointer is NULL. -/
theorem freeRequest_foreign : LifeReach bumpHost frozenMachine ∧
    (Ev.freeRequest 1 (some ⟨0, 0⟩) : Ev BumpSpace).Ok frozenMachine ∧
    (Ev.freeRequest 1 (some ⟨0, 0⟩) : Ev BumpSpace).Refused frozenMachine ∧
    ∃ M', step bumpHost frozenMachine (.freeRequest 1 (some ⟨0, 0⟩)) = some (0, M') ∧
      (M' 0).da.stateCell = none := by
  refine ⟨frozenMachine_reach, ?_, .inr ⟨_, rfl, by decide⟩, freeReq frozenMachine ⟨0, 0⟩, ?_, ?_⟩
  · rintro q ⟨⟩
    exact frozenMachine_live 0
  · have hM := frozenMachine_reach.ok 1
    have hne : jsCurrentRequest frozenMachine 1 ≠ some ⟨0, 0⟩ := fun he =>
      absurd ((jsCurrentRequest_eq hM _).1 he).1 (by decide)
    simp [step, jsFreeRequest, hM.arena, if_neg hne]
  · show (jsRequestArenaFree (jsFreezeRuntime bumpHost bumpRuntime).da 0).stateCell = none
    decide +kernel

end ArenaJs
