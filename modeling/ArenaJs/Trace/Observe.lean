import ArenaJs.Lib.Stutter
import ArenaJs.Trace.Machine
import Mathlib.Data.Fintype.Basic

/-!
# A host that only observes

A run with tracing on is compared with the run of the same program with tracing off. `Same` says
what the program can tell: the heap, the exception slot, the instructions executed and the C
functions called so far with the completions that reached an entry point, and the result code. The
heaps need not be equal, since the hooks allocate in the request's arena: a relation `H` says which
differences of memory are left out of account.

`ObserveOk` is the condition on a step of the traced run: a hook that calls back into the engine, to
convert a name or a thrown value or to write a snapshot, gets its memory, changes nothing else there
and runs no user code; a snapshot is taken while no exception is pending; at the top of the dispatch
loop no exception is pending; and a step of the program does the same as with the memory of the
untraced run. `observe_same`: for a host that never asks to stop, in every run whose steps all meet
it, each configuration of either run is `Same` as one of the other.
The relation `Sim` is a stuttering simulation: a step of the program is a step of both runs, a step
of a hook is one of the traced run only.
-/

namespace ArenaJs.Interp

open Trace (Event TraceState nameSeen modeOff)

section
variable {σ V L N : Type} (H : σ → σ → Prop)

/-! ## The property -/

/-- What the program does, without what the tracer does. -/
def Item.isEffect : Item V L N → Bool
  | .exec _ | .native _ | .outcome .. => true
  | _ => false

def Cfg.effects (c : Cfg σ V L N) : List (Item V L N) := c.log.filter Item.isEffect

/-- The program cannot tell the two configurations apart. -/
structure Same (t u : Cfg σ V L N) : Prop where
  heap : H t.heap u.heap
  pending : t.pending = u.pending
  effects : t.effects = u.effects
  halted : ∀ rc, t.ctl = .halt rc ↔ u.ctl = .halt rc

/-! ## The condition -/

/-- The frame of a snapshot that the host took. -/
def Frame.isSnapshot : Frame V L N → Bool
  | .snapshot .. => true
  | _ => false

/-- The condition in a C function that a hook calls: it returns at once, leaves the exception slot
as it is and the heap but for memory, and what a snapshot clears was clear. -/
def HelperOk (E : Engine σ V L N) (c : Cfg σ V L N) : Point V L N → Prop
  | .native n => (∀ u, H c.heap u → H (E.native n c.heap c.pending).1 u) ∧
      (E.native n c.heap c.pending).2.1 = c.pending ∧ (E.native n c.heap c.pending).2.2.isRet
  | .returning _ => c.frames.head?.any Frame.isSnapshot → c.pending = none
  | _ => True

def Point.isTop : Point V L N → Bool
  | .top _ => true
  | _ => false

/-- The condition at a point of the program: the step does the same on the heap of the untraced run,
and the loop finds no exception pending. -/
def ProgramOk (E : Engine σ V L N) (c : Cfg σ V L N) (p : Point V L N) : Prop :=
  (∀ u, H c.heap u → E.AlikeAt H c.heap u c.pending p) ∧
    (p.isTop → c.trace.mode ≠ modeOff → c.pending = none)

/-- The condition on a step. -/
def ObserveOk (E : Engine σ V L N) (c : Cfg σ V L N) : Prop :=
  match c.ctl with
  | .run p => if c.frames.head?.any Frame.inHook then HelperOk H E c p else ProgramOk H E c p
  | .hook ⟨_, .ensure a :: _, _⟩ _ => nameSeen c.trace a = false →
      (E.atomCString a c.heap).2.isSome ∧ ∀ u, H c.heap u → H (E.atomCString a c.heap).1 u
  | _ => True

section
variable [DecidableEq V] [DecidableEq L] [DecidableEq N] [DecidableRel H] (E : Engine σ V L N)

instance (s u : σ) : Decidable (E.JobsAlike H s u) := by
  unfold Engine.JobsAlike
  split <;> infer_instance

instance (s u : σ) (pending : Option V) : DecidablePred (E.AlikeAt H s u pending) := fun p => by
  unfold Engine.AlikeAt
  split <;> infer_instance

instance [Fintype σ] (c : Cfg σ V L N) : DecidablePred (HelperOk H E c) := fun p => by
  unfold HelperOk
  split <;> infer_instance

instance [Fintype σ] (c : Cfg σ V L N) : DecidablePred (ProgramOk H E c) := fun _ =>
  inferInstanceAs (Decidable (_ ∧ _))

instance [Fintype σ] : DecidablePred (ObserveOk H E) := fun c => by
  unfold ObserveOk
  split <;> infer_instance

end

/-! ## The relation -/

/-- The traced and the untraced run agree on what is not control. -/
structure Both (t u : Cfg σ V L N) : Prop where
  heap : H t.heap u.heap
  pending : t.pending = u.pending
  frames : t.frames = u.frames
  armed : t.trace.bailArmed = u.trace.bailArmed
  off : u.trace.mode = modeOff
  effects : t.effects = u.effects
  hookless : ∀ f ∈ u.frames, f.inHook = false

/-- A frame of a hook that waits for a C function, and the hook it goes back to. -/
def Frame.waits (h : HookRun V) (p : Point V L N) : Frame V L N → Prop
  | .converting h' _ _ p' => h' = h ∧ p' = p
  | .snapshot h' code p' => h' = h ∧ p' = p ∧ code = .go
  | _ => False

/-- The traced run is at the same point as the untraced one, or in a hook before it, or in a C
function that such a hook calls. -/
inductive Sim (t u : Cfg σ V L N) : Prop
  | same (both : Both H t u) (ctl : t.ctl = u.ctl) (hook : ∀ h p, t.ctl ≠ .hook h p)
  | hook {h : HookRun V} {p : Point V L N} (both : Both H t u) (ctl : t.ctl = .hook h p)
      (go : h.code = .go) (untraced : u.ctl = .run p)
  | helper {h : HookRun V} {p : Point V L N} {f : Frame V L N} (frames : t.frames = f :: u.frames)
      (waits : f.waits h p) (both : Both H { t with frames := u.frames } u)
      (ctl : (∃ n, t.ctl = .run (.native n)) ∨ ∃ r, t.ctl = .run (.returning r))
      (go : h.code = .go) (untraced : u.ctl = .run p)

variable {H}

theorem Sim.same_as {t u : Cfg σ V L N} (h : Sim H t u) : Same H t u := by
  cases h with
  | same both ctl hook => exact ⟨both.heap, both.pending, both.effects, fun rc => by rw [ctl]⟩
  | hook both ctl go untraced =>
    exact ⟨both.heap, both.pending, both.effects, fun rc => by simp [ctl, untraced]⟩
  | helper frames waits both ctl go untraced =>
    refine ⟨both.heap, both.pending, both.effects, fun rc => ?_⟩
    rcases ctl with ⟨n, ctl⟩ | ⟨r, ctl⟩ <;> simp [ctl, untraced]

/-! ## Steps of the program -/

section
variable {E : Engine σ V L N} {t u : Cfg σ V L N}

theorem Both.goto (h : Both H t u) (p : Point V L N) : Sim H (t.goto p) (u.goto p) :=
  .same { h with } rfl nofun

theorem Both.halt (h : Both H t u) (rc : Rc) : Sim H (t.halt rc) (u.halt rc) :=
  .same { h with } rfl nofun

theorem Both.push (h : Both H t u) {f : Frame V L N} (hf : f.inHook = false) (p : Point V L N) :
    Sim H (t.push f p) (u.push f p) :=
  .same { h with
    frames := congrArg (f :: ·) h.frames
    hookless := List.forall_mem_cons.2 ⟨hf, h.hookless⟩ } rfl nofun

/-- Both runs record the same. -/
theorem Both.record (h : Both H t u) (i : Item V L N) : Both H (t.record i) (u.record i) := by
  refine { h with effects := ?_ }
  have := h.effects
  simp only [Cfg.effects, Cfg.record, List.filter_cons] at this ⊢
  rw [this]

theorem Both.setHeap (h : Both H t u) {s s' : σ} (hs : H s s') :
    Both H { t with heap := s } { u with heap := s' } :=
  { h with heap := hs }

theorem Both.setPending (h : Both H t u) (v : Option V) :
    Both H { t with pending := v } { u with pending := v } :=
  { h with pending := rfl }

theorem start_off {st : TraceState} (h : st.mode = modeOff) (hk : Trace.Hook) :
    hk.start st = none := by
  cases hk <;> simp [Trace.Hook.start, h, modeOff, Trace.modeDrill]

section
variable (h : Both H t u)
include h

/-- Only the traced run enters the hook. -/
theorem Both.callHook (hk : Trace.Hook) (todo : List (Work V)) (p : Point V L N) :
    Sim H (t.callHook hk todo p) (u.callHook hk todo p) := by
  simp only [Cfg.callHook, start_off h.off]
  split
  · exact h.goto p
  · rename_i tr htr
    obtain ⟨-, -, _, _, rfl⟩ := Trace.Hook.start_some htr
    exact .hook { h with } rfl rfl rfl

end

theorem both_follows : Follows H (fun t u : Cfg σ V L N => Both H t u) (Sim H) where
  eq {t u} h := ⟨t.heap, t.trace, t.active, t.ctl, t.log, h.heap, h.armed, by
    rw [← h.pending, ← h.frames]⟩
  heap h := h.setHeap
  pending h := h.setPending
  record h i _ := h.record i
  goto h := h.goto
  halt h := h.halt
  push h _ hf := h.push hf
  callHook h := h.callHook

section
variable (h : Both H t u)
include h

/-- A call of the program returns. -/
theorem Both.returnTo {f : Frame V L N} (hf : f.inHook = false)
    (hoom : E.oomHit t.heap = E.oomHit u.heap) (r : Completion V) :
    Sim H (E.returnTo t r f) (E.returnTo u r f) := by
  cases f with
  | js l => cases r <;> exact h.goto _
  | closing l | traced l => exact h.goto _
  | native n => exact h.goto _
  | converting | snapshot | inspecting | raising => cases hf
  | entry ph => exact both_follows.entryStep h hoom r ph

/-- A step of the program is a step of both runs. -/
theorem Both.stepAt (hctl : t.ctl = u.ctl) (hhook : ∀ hr p, t.ctl ≠ .hook hr p)
    {p : Point V L N} (hok : ProgramOk H E t p) : Sim H (E.stepAt t p) (E.stepAt u p) := by
  obtain ⟨halike, htop⟩ := hok
  have ha := h.pending ▸ halike u.heap h.heap
  obtain ⟨s, tr, act, ctl, log, -, -, rfl⟩ := both_follows.eq h
  cases p with
  | top l =>
    have ht : ¬ (tr.mode ≠ modeOff ∧ u.pending.isSome) := by
      rintro ⟨hm, hp⟩
      rw [show u.pending = none from htop rfl hm] at hp
      cases hp
    simp only [Engine.stepAt, Engine.loopTop, if_neg ht, h.off, ne_eq, not_true_eq_false,
      false_and, if_false]
    exact h.callHook _ _ _
  | returning r =>
    simp only [Engine.stepAt]
    split
    · exact .same h hctl hhook
    · rename_i f fs hfs
      have hmem : ∀ f' ∈ f :: fs, f'.inHook = false := hfs ▸ h.hookless
      have h' : Both H ⟨s, u.pending, tr, act, ctl, fs, log⟩ { u with frames := fs } :=
        { h with frames := rfl, hookless := fun f' hf' => hmem f' (List.mem_cons_of_mem f hf') }
      exact h'.returnTo (hmem f List.mem_cons_self) ha r
  | _ => exact both_follows.stepAt h ha (by rintro _ ⟨⟩) (by rintro _ ⟨⟩)

end

/-! ## Steps of a hook -/

/-- The steps that a hook still takes for a piece of work, at most. -/
def Work.weight : Work V → Nat
  | .convert .. => 8
  | _ => 4

def HookRun.weight (h : HookRun V) : Nat := (h.todo.map Work.weight).sum + 1

/-- The steps a C function and the return from it take. -/
def Point.helperLeft : Point V L N → Nat
  | .native _ => 2
  | .returning _ => 1
  | _ => 0

/-- The steps that the traced run still takes alone, at most. -/
def Cfg.hookLeft (c : Cfg σ V L N) : Nat :=
  match c.ctl with
  | .hook h _ => h.weight
  | .run p =>
    match c.frames with
    | .converting h _ _ _ :: _ => h.weight + 4 + p.helperLeft
    | .snapshot h _ _ :: _ => h.weight + p.helperLeft
    | _ => 0
  | .halt _ => 0

/-- The tracer records something. -/
theorem Both.unseen (h : Both H t u) {i : Item V L N} (hi : i.isEffect = false) :
    Both H (t.record i) u := by
  refine { h with effects := ?_ }
  have := h.effects
  simp only [Cfg.effects, Cfg.record, List.filter_cons, hi] at this ⊢
  exact this

/-- The trace state is not part of what the runs share, but for the stop. -/
theorem Both.setTrace (h : Both H t u) {tr : TraceState} (ht : tr.bailArmed = t.trace.bailArmed)
    (act : Bool) : Both H { t with trace := tr, active := act } u :=
  { h with armed := ht.trans h.armed }

theorem Both.setCtl (h : Both H t u) (ctl : Ctl V L N) : Both H { t with ctl := ctl } u :=
  { h with }

/-- The point after a hook is not one inside it. -/
theorem hookLeft_goto (h : ∀ f ∈ t.frames, f.inHook = false) (p : Point V L N) :
    (t.goto p).hookLeft = 0 := by
  simp only [Cfg.hookLeft, Cfg.goto]
  split
  · rename_i hf
    exact absurd (h _ (by rw [hf]; exact List.mem_cons_self)) (by simp [Frame.inHook])
  · rename_i hf
    exact absurd (h _ (by rw [hf]; exact List.mem_cons_self)) (by simp [Frame.inHook])
  · rfl

section
variable {h : HookRun V} {p : Point V L N}
variable {host : Host V L N} {f : Frame V L N}

/-- The host has returned 0. -/
theorem Both.replied (hb : Both H t u) (hu : u.ctl = .run p) (hgo : h.code = .go) :
    Sim H (Engine.replied t h .go p) u ∧ (Engine.replied t h .go p).hookLeft = h.weight := by
  refine ⟨.hook ((hb.unseen (i := .reply .go) rfl).setCtl _) rfl ?_ hu, rfl⟩
  rw [hgo]
  rfl

/-- An event is delivered to a host that observes. -/
theorem Both.deliver (hhost : ∀ log e, (host log e).code = .go)
    (hb : Both H t u) (hu : u.ctl = .run p) (hgo : h.code = .go) (e : Event) :
    Sim H (E.deliver host t h e p) u ∧ (E.deliver host t h e p).hookLeft ≤ h.weight + 2 := by
  have hb' : Both H (t.record (.event e)) u := hb.unseen rfl
  simp only [Engine.deliver, hhost]
  split
  · refine ⟨.helper (congrArg _ hb'.frames) ⟨rfl, rfl, rfl⟩ ?_ (.inl ⟨_, rfl⟩) hgo hu, ?_⟩
    · exact { hb' with frames := rfl }
    · exact le_of_eq rfl
  · obtain ⟨hsim, hleft⟩ := hb'.replied hu hgo
    exact ⟨hsim, by omega⟩

theorem nameRemember_armed (st : TraceState) (a : Nat) :
    (Trace.nameRemember st a).bailArmed = st.bailArmed := by
  unfold Trace.nameRemember
  split <;> rfl

/-- A name is announced to a host that observes. -/
theorem Both.ensure (hhost : ∀ log e, (host log e).code = .go)
    (hb : Both H t u) (hu : u.ctl = .run p) (hgo : h.code = .go) {a : Nat}
    (hok : nameSeen t.trace a = false → (E.atomCString a t.heap).2.isSome ∧
      ∀ u, H t.heap u → H (E.atomCString a t.heap).1 u) :
    Sim H (E.ensure host t h a p) u ∧ (E.ensure host t h a p).hookLeft ≤ h.weight + 2 := by
  unfold Engine.ensure
  split
  · exact ⟨.hook (hb.setCtl _) rfl hgo hu, Nat.le_add_right _ _⟩
  · rename_i hseen
    obtain ⟨hsome, hmem⟩ := hok (by simpa using hseen)
    obtain ⟨text, htext⟩ := Option.isSome_iff_exists.1 hsome
    have hb' : Both H { t with heap := (E.atomCString a t.heap).1 } u :=
      { hb with heap := hmem u.heap hb.heap }
    simp only [htext]
    exact (hb'.setTrace (nameRemember_armed t.trace a) t.active).deliver hhost hu hgo _

/-- The end of a hook that was not asked to stop. -/
theorem Both.finishHook (hb : Both H t u) (hu : u.ctl = .run p) (hgo : h.code = .go) :
    Sim H (E.finishHook t h p) u ∧ (E.finishHook t h p).hookLeft = 0 := by
  have harmed : (h.hook.finish t.trace false).bailArmed = t.trace.bailArmed := by
    cases h.hook <;> rfl
  have hb' := (hb.setTrace harmed false)
  simp only [Engine.finishHook, hgo]
  refine ⟨.same (hb'.setCtl _) hu.symm nofun, hookLeft_goto ?_ p⟩
  rw [hb'.frames]
  exact hb'.hookless

/-- A step of a hook is a step of the traced run only. -/
theorem Both.hookStep (hhost : ∀ log e, (host log e).code = .go)
    (hb : Both H t u) (hctl : t.ctl = .hook h p) (hu : u.ctl = .run p) (hgo : h.code = .go)
    (hok : ObserveOk H E t) :
    Sim H (E.hookStep host t h p) u ∧ (E.hookStep host t h p).hookLeft < h.weight := by
  obtain ⟨hk, todo, code⟩ := h
  simp only [ObserveOk, hctl] at hok
  rcases todo with - | ⟨a | ⟨v, file, line⟩ | e, todo⟩
  · obtain ⟨hsim, hleft⟩ := hb.finishHook (E := E) hu hgo
    exact ⟨hsim, lt_of_eq_of_lt hleft (Nat.succ_pos _)⟩
  · obtain ⟨hsim, hleft⟩ := hb.ensure (E := E) (h := ⟨hk, todo, code⟩) hhost hu hgo hok
    refine ⟨hsim, lt_of_le_of_lt hleft ?_⟩
    simp only [HookRun.weight, List.map_cons, List.sum_cons, Work.weight]
    omega
  · refine ⟨.helper (congrArg _ hb.frames) ⟨rfl, rfl⟩ ?_ (.inl ⟨_, rfl⟩) hgo hu, ?_⟩
    · exact { hb with frames := rfl }
    · simp only [Engine.hookStep, Cfg.hookLeft, Cfg.push, HookRun.weight, Point.helperLeft,
        List.map_cons, List.sum_cons, Work.weight]
      omega
  · obtain ⟨hsim, hleft⟩ := hb.deliver (E := E) (h := ⟨hk, todo, code⟩) hhost hu hgo e
    refine ⟨hsim, lt_of_le_of_lt hleft ?_⟩
    simp only [HookRun.weight, List.map_cons, List.sum_cons, Work.weight]
    omega

theorem Frame.waits.inHook (hf : f.waits h p) : f.inHook = true := by
  cases f with
  | converting | snapshot => rfl
  | _ => exact hf.elim

/-- The C function a hook calls returns. -/
theorem Both.helperNative {n : N} (hb : Both H { t with frames := u.frames } u)
    (hframes : t.frames = f :: u.frames) (hf : f.waits h p) (hctl : t.ctl = .run (.native n))
    (hu : u.ctl = .run p) (hgo : h.code = .go) (hok : ObserveOk H E t) :
    Sim H (E.nativeStep t n) u ∧ (E.nativeStep t n).hookLeft < t.hookLeft := by
  simp only [ObserveOk, hctl, hframes, List.head?_cons, Option.any_some, hf.inHook, if_true,
    HelperOk] at hok
  obtain ⟨hheap, hpend, hret⟩ := hok
  obtain ⟨r, hr⟩ := NStep.exists_ret hret
  have hitem : t.nativeItem n = .helper n := by simp [Cfg.nativeItem, hframes, hf.inHook]
  have hmem : Both H { t with heap := (E.native n t.heap t.pending).1, frames := u.frames } u :=
    { hb with heap := hheap u.heap hb.heap }
  have hb' := hmem.unseen (i := .helper n) rfl
  have hstep : E.nativeStep t n = ({ t with heap := (E.native n t.heap t.pending).1 }.record
      (.helper n)).goto (.returning r) := by
    simp [Engine.nativeStep, hr, hpend, hitem, Cfg.record]
  rw [hstep]
  refine ⟨.helper hframes hf (hb'.setCtl _) (.inr ⟨r, rfl⟩) hgo hu, ?_⟩
  cases f with
  | converting | snapshot =>
    simp [Cfg.hookLeft, Cfg.goto, Cfg.record, hctl, hframes, Point.helperLeft]
  | _ => exact hf.elim

/-- The hook goes on after the C function. -/
theorem Both.helperReturn {r : Completion V}
    (hb : Both H { t with frames := u.frames } u) (hframes : t.frames = f :: u.frames)
    (hf : f.waits h p) (hctl : t.ctl = .run (.returning r)) (hu : u.ctl = .run p)
    (hgo : h.code = .go) (hok : ObserveOk H E t) :
    Sim H (E.returnTo { t with frames := u.frames } r f) u ∧
      (E.returnTo { t with frames := u.frames } r f).hookLeft < t.hookLeft := by
  cases f with
  | converting h' file line p' =>
    obtain ⟨rfl, rfl⟩ := hf
    refine ⟨.hook (hb.setCtl _) rfl hgo hu, ?_⟩
    simp only [Engine.returnTo, Cfg.hookLeft, hctl, hframes, HookRun.weight, Point.helperLeft,
      List.map_cons, List.sum_cons, Work.weight]
    omega
  | snapshot h' code p' =>
    obtain ⟨rfl, rfl, rfl⟩ := hf
    have hnone : t.pending = none := by
      simp only [ObserveOk, hctl, hframes, List.head?_cons, Option.any_some, Frame.inHook, if_true,
        HelperOk, Frame.isSnapshot, true_implies] at hok
      exact hok
    have hb' : Both H { t with frames := u.frames, pending := none } u :=
      { hb with pending := hnone.symm.trans hb.pending }
    obtain ⟨hsim, hleft⟩ := hb'.replied hu hgo
    refine ⟨hsim, lt_of_eq_of_lt hleft ?_⟩
    simp [Cfg.hookLeft, hctl, hframes, Point.helperLeft]
  | _ => exact hf.elim

end

/-! ## Runs -/

/-- The traced run takes a step that the untraced run takes too, or one of a hook. -/
theorem Sim.step {host : Host V L N} (hhost : ∀ log e, (host log e).code = .go) (h : Sim H t u)
    (hok : ObserveOk H E t) :
    Sim H (E.step host t) (E.step host u) ∨
      Sim H (E.step host t) u ∧ (E.step host t).hookLeft < t.hookLeft := by
  cases h with
  | same both ctl hook =>
    left
    cases hctl : t.ctl with
    | run p =>
      simp only [Engine.step, ← ctl, hctl]
      refine both.stepAt ctl hook ?_
      have hout : ¬ t.frames.head?.any Frame.inHook := by
        rw [both.frames]
        cases hf : u.frames with
        | nil => exact Bool.false_ne_true
        | cons f fs => simp [both.hookless f (hf ▸ List.mem_cons_self)]
      simpa only [ObserveOk, hctl, if_neg hout] using hok
    | hook hr p => exact absurd hctl (hook hr p)
    | halt rc =>
      simp only [Engine.step, ← ctl, hctl]
      exact .same both ctl hook
  | @hook hr p both ctl go untraced =>
    right
    have hleft : t.hookLeft = hr.weight := by simp only [Cfg.hookLeft, ctl]
    simp only [Engine.step, ctl]
    rw [hleft]
    exact both.hookStep hhost ctl untraced go hok
  | helper frames waits both ctl go untraced =>
    right
    rcases ctl with ⟨n, ctl⟩ | ⟨r, ctl⟩
    · simp only [Engine.step, ctl, Engine.stepAt]
      exact both.helperNative frames waits ctl untraced go hok
    · simp only [Engine.step, ctl, Engine.stepAt, frames]
      exact both.helperReturn frames waits ctl untraced go hok

theorem stutterSim (E : Engine σ V L N) {host : Host V L N}
    (hhost : ∀ log e, (host log e).code = .go) :
    StutterSim (E.step host) (E.step host) (ObserveOk H E) (Sim H) Cfg.hookLeft :=
  ⟨fun h hok => h.step hhost hok⟩

/-- Both runs start in the same configuration but for the mode. -/
theorem Job.start_sim (job : Job L N) {s : σ} (hs : H s s) (pending : Option V) (st : TraceState) :
    Sim H (job.start s pending st) (job.start s pending { st with mode := modeOff }) := by
  cases job <;>
    exact .same ⟨hs, rfl, rfl, rfl, rfl, rfl, by simp [Job.start, Frame.inHook]⟩ rfl nofun

theorem run_eq_iterate (E : Engine σ V L N) (host : Host V L N) (c : Cfg σ V L N) (n : Nat) :
    E.run host c n = (E.step host)^[n] c := by
  induction n with
  | zero => rfl
  | succ n ih => rw [Function.iterate_succ_apply', ← ih]; rfl

end

/-- Observation does not perturb a run whose steps meet `ObserveOk`: whatever the traced run does
the untraced run does, and the other way round. `H` is any relation between heaps. -/
theorem observe_same (E : Engine σ V L N) (host : Host V L N) {s : σ} (hs : H s s)
    (pending : Option V) (st : TraceState) (job : Job L N)
    (hhost : ∀ log e, (host log e).code = .go)
    (hok : ∀ m, ObserveOk H E (E.run host (job.start s pending st) m)) :
    (∀ m, ∃ n, Same H (E.run host (job.start s pending st) m)
      (E.run host (job.start s pending { st with mode := modeOff }) n)) ∧
    ∀ n, ∃ m, Same H (E.run host (job.start s pending st) m)
      (E.run host (job.start s pending { st with mode := modeOff }) n) := by
  simp only [run_eq_iterate] at hok ⊢
  have hstart := job.start_sim hs pending st
  refine ⟨fun m => ?_, fun n => ?_⟩
  · obtain ⟨n, hn⟩ := (stutterSim E hhost).forth hstart m fun i _ => hok i
    exact ⟨n, hn.same_as⟩
  · obtain ⟨m, hm⟩ := (stutterSim E hhost).back hstart hok n
    exact ⟨m, hm.same_as⟩

/-- A run that has ended stays as it is. -/
theorem run_halted {E : Engine σ V L N} {host : Host V L N} {c : Cfg σ V L N} {k : Nat} {rc : Rc}
    (h : (E.run host c k).ctl = .halt rc) {n : Nat} (hn : k ≤ n) :
    E.run host c n = E.run host c k := by
  induction n, hn using Nat.le_induction with
  | base => rfl
  | succ n _ ih =>
    rw [Engine.run, ih]
    simp only [Engine.step, h]

/-- A configuration with other effects than a whole run has is none of that run. -/
theorem not_same_of_halted {E : Engine σ V L N} {host : Host V L N} {c t : Cfg σ V L N} {k : Nat}
    {rc : Rc} (hend : (E.run host c k).ctl = .halt rc)
    (hne : ∀ n ≤ k, t.effects ≠ (E.run host c n).effects) (n : Nat) :
    ¬ Same H t (E.run host c n) := by
  intro h
  rcases le_total n k with hn | hn
  · exact hne n hn h.effects
  · rw [run_halted hend hn] at h
    exact hne k le_rfl h.effects

end

/-- A function that throws. The heap is the memory taken, of which there is `room`; the conversion
of a name or a value takes some. If `user`, the conversion of the thrown value calls a function of
the program; other C functions return at once. -/
def thrower (user : Bool) (room : Fin 8) : Engine (Fin 8) Nat Nat Nat where
  direct := false
  refuse _ _ := none
  instr l s := (s, if l = 0 then .throw 3 0 else .ret 0)
  resume l _ := l
  unwind _ := .none
  uncatchable _ := false
  native n s pending := (if n = 1 then s + 1 else s, pending,
    if n = 1 ∧ user then .call (.js 5 false) 0 else .ret (.ok 0))
  back n _ := n
  func l := l + 10
  file _ := 2
  startLine _ := 1
  line l := l + 1
  atomCString _ s := (s + 1, some [102])
  noMemory := 0
  toCString _ := 1
  bytes _ := []
  snapshot _ := 2
  backtrace _ _ := none
  stopTrace _ := none
  stopError := 7
  isTraceStop _ := 0
  isTrue _ := false
  diagnose _ := 1
  promise _ v := .fulfilled v
  stuck := 0
  popJob _ := none
  oomHit s := room < s

/-- A host that takes a snapshot at the events of `snap`. -/
def snapshotAt (snap : Event → Bool) : Host Nat Nat Nat := fun _ e => ⟨snap e, .go⟩

def isEntry : Event → Bool
  | .funcEnter .. => true
  | _ => false

/-- The trace state in mode SCAN. -/
def scanning : TraceState := { TraceState.init with mode := 1 }

/-- The script that throws, traced with a snapshot at the events of `snap`. -/
def traced (user : Bool) (room : Fin 8) (snap : Event → Bool) : Nat → Cfg (Fin 8) Nat Nat Nat :=
  (thrower user room).run (snapshotAt snap) (Job.start 0 none scanning (.run 0))

/-- The script with tracing off. -/
def untraced (user : Bool) (room : Fin 8) (snap : Event → Bool) : Nat → Cfg (Fin 8) Nat Nat Nat :=
  (thrower user room).run (snapshotAt snap)
    (Job.start 0 none { scanning with mode := modeOff } (.run 0))

/-- A snapshot at a FUNC_ENTER event and a THROW event do not perturb the script, though the traced
run takes more memory. -/
theorem observe_same_funcEnter :
    (∀ m, ∃ n, Same (· ≥ ·) (traced false 7 isEntry m) (untraced false 7 isEntry n)) ∧
      ∀ n, ∃ m, Same (· ≥ ·) (traced false 7 isEntry m) (untraced false 7 isEntry n) := by
  refine observe_same (H := (· ≥ ·)) (thrower false 7) (snapshotAt isEntry)
    (show (0 : Fin 8) ≥ 0 from le_rfl) none scanning (.run 0) (fun _ _ => rfl) fun m => ?_
  have hend : (traced false 7 isEntry 26).ctl = .halt .error := rfl
  have hall : ∀ k ≤ 26, ObserveOk (· ≥ ·) (thrower false 7) (traced false 7 isEntry k) := by
    decide +kernel
  rcases le_total m 26 with hm | hm
  · exact hall m hm
  · have hstay : traced false 7 isEntry m = traced false 7 isEntry 26 := run_halted hend hm
    have h26 := hall 26 le_rfl
    rw [← hstay] at h26
    exact h26

/-- The THROW event runs a function of the program once more, a snapshot at the FUNC_EXIT event
loses the thrown value, and the memory of the hooks is missing at the end: none of the runs is that
of the script with tracing off. -/
theorem observe_perturbs :
    (∀ n, ¬ Same (fun _ _ => True) (traced true 7 (fun _ => false) 40)
      (untraced true 7 (fun _ => false) n)) ∧
    (∀ n, ¬ Same (fun _ _ => True) (traced false 7 (· = .funcExit) 40)
      (untraced false 7 (· = .funcExit) n)) ∧
    (traced false 2 (fun _ => false) 40).ctl = .halt .oom ∧
      (untraced false 2 (fun _ => false) 40).ctl = .halt .error := by
  have h1 : (untraced true 7 (fun _ => false) 20).ctl = .halt .error := rfl
  have h2 : (untraced false 7 (· = .funcExit) 20).ctl = .halt .error := rfl
  refine ⟨not_same_of_halted h1 ?_, not_same_of_halted h2 ?_, rfl, rfl⟩
  · show ∀ n ≤ 20, (traced true 7 (fun _ => false) 40).effects ≠
      (untraced true 7 (fun _ => false) n).effects
    decide +kernel
  · show ∀ n ≤ 20, (traced false 7 (· = .funcExit) 40).effects ≠
      (untraced false 7 (· = .funcExit) n).effects
    decide +kernel

end ArenaJs.Interp
