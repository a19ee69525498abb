import ArenaJs.Trace.Machine

/-!
# A host that asks to stop

`Stops` says what a stop should do: from the moment the callback returns it no event is delivered,
from the moment the hook returns no instruction is executed, and the entry point returns
`ARENA_RC_OK`. The stop is an ordinary exception, so whether it does this depends on what the
exception meets on its way. `StopOk` is the condition on a step: the event is the last of its hook
and not a LINE event, and then nothing that the exception passes handles it. `stop_stops`: in every
run whose steps all meet it, every configuration is one of `Stops`.
-/

namespace ArenaJs.Interp

open Trace (Event TraceState nameSeen modeOff)

section
variable {σ V L N : Type}
variable (E : Engine σ V L N) (c : Cfg σ V L N)

/-! ## The property -/

def Item.isEvent : Item V L N → Bool
  | .event _ => true
  | _ => false

def Item.isExec : Item V L N → Bool
  | .exec _ => true
  | _ => false

/-- No event after a stop, and no instruction after the hook that stopped. -/
def Quiet (newer older : Item V L N) : Prop :=
  (older.isStop → newer.isEvent = false) ∧ (older.isArmed → newer.isExec = false)

/-- A stop stops the program. -/
structure Stops (c : Cfg σ V L N) : Prop where
  quiet : c.log.Pairwise Quiet
  result : ∀ rc, c.ctl = .halt rc → (∃ i ∈ c.log, i.isStop) → rc = .ok

/-! ## The condition -/

def Frame.isJs : Frame V L N → Bool
  | .js _ => true
  | _ => false

/-- Where the run goes on after a hook that stops: the frame is left by the exception, or it is left
by a return to a frame that looks at the exception slot before it goes on. -/
def StopPoint (frames : List (Frame V L N)) : Point V L N → Prop
  | .top _ | .exception _ | .thrown _ _ | .returning .exception => True
  | .returning (.ok _) => E.direct = false ∧ frames.head?.any Frame.isJs
  | _ => False

/-- The host may ask to stop at the last event of a hook that is not inside another one. -/
def MayStop (todo : List (Work V)) (p : Point V L N)
    (reply : Reply) : Prop :=
  reply.code ≠ .go → todo = [] ∧ reply.snapshot = false ∧ StopPoint E c.frames p ∧
    ∀ f ∈ c.frames, f.inHook = false

/-- The condition on a step of a hook. -/
def HookOk (host : Host V L N) (c : Cfg σ V L N) (h : HookRun V)
    (p : Point V L N) : Prop :=
  match h.todo with
  | [] => h.code = .stop → E.stopTrace c.heap = none
  | .ensure a :: todo =>
    nameSeen c.trace a = false → ∀ s ∈ (E.atomCString a c.heap).2,
      MayStop E c todo p (host c.log (.name a (Trace.clipName s)))
  | .convert .. :: _ => True
  | .deliver e :: todo => MayStop E c todo p (host c.log e)

/-- The frame a completion returns to while the stop is under way: the exception goes on, or the
snapshot of the code 2 ends, or `arena_run_module_r` classifies it. -/
def ReturnOk (r : Completion V) : Frame V L N → Prop
  | .js _ => r = .exception ∨ E.direct = false
  | .closing _ | .traced _ => True
  | .native _ => r = .exception
  | .inspecting _ => E.stopTrace c.heap = none
  | .entry (.modules _) | .entry .evalModule | .entry (.awaitJob _) | .entry .drainJob =>
    r = .exception
  | .entry (.classify _) => True
  | .entry (.classifyJob _) => E.oomHit c.heap = false
  | _ => False

def Unwind.isNone : Unwind V L N → Bool
  | .none => true
  | _ => false

/-- The condition on a step while the stop is under way: no backtrace formatter runs, the frame has
no handler and no iterator to close, and a C function returns at once and leaves an exception
pending. -/
def PassOk : Point V L N → Prop
  | .exception _ => E.backtrace c.heap c.pending = none
  | .unwinding l => c.pending.any E.uncatchable ∨ (E.unwind l).isNone
  | .native n =>
    (E.native n c.heap c.pending).2.2.isRet ∧
      (c.pending.isSome → (E.native n c.heap c.pending).2.1.isSome)
  | .returning r => ∀ f ∈ c.frames.head?, ReturnOk E c r f
  | _ => True

/-- The condition on a step. -/
def StopOk (host : Host V L N) (c : Cfg σ V L N) : Prop :=
  match c.ctl with
  | .run p => (∃ i ∈ c.log, i.isStop) → PassOk E c p
  | .hook h p => HookOk E host c h p
  | .halt _ => True

section
variable [DecidableEq V] [DecidableEq N]

instance (frames : List (Frame V L N)) : DecidablePred (StopPoint E frames)
  | .top _ | .exception _ | .thrown .. | .returning .exception => instDecidableTrue
  | .returning (.ok _) => inferInstanceAs (Decidable (_ ∧ _))
  | .enter _ | .dispatch _ | .unwinding _ | .leaving _ | .native _ | .await _ | .failed | .drain =>
    instDecidableFalse

instance (todo : List (Work V)) (p : Point V L N) : DecidablePred (MayStop E c todo p) :=
  fun _ => inferInstanceAs (Decidable (_ → _))

instance (host : Host V L N) (h : HookRun V) : DecidablePred (HookOk E host c h) := fun p => by
  unfold HookOk
  split <;> infer_instance

instance (r : Completion V) : DecidablePred (ReturnOk E c r) := fun f => by
  unfold ReturnOk
  split <;> infer_instance

instance : DecidablePred (PassOk E c)
  | .exception _ => inferInstanceAs (Decidable (_ = _))
  | .unwinding _ => inferInstanceAs (Decidable (_ ∨ _))
  | .native _ => inferInstanceAs (Decidable (_ ∧ _))
  | .returning _ => inferInstanceAs (Decidable (∀ f ∈ _, _))
  | .enter _ | .top _ | .dispatch _ | .thrown .. | .leaving _ | .await _ | .failed | .drain =>
    instDecidableTrue

instance (host : Host V L N) : DecidablePred (StopOk E host) := fun ⟨_, _, _, _, ctl, _, _⟩ => by
  cases ctl <;> dsimp only [StopOk] <;> infer_instance

end

/-! ## Before a stop -/

/-- No code so far. -/
def Frame.going : Frame V L N → Prop
  | .converting h _ _ _ => h.code = .go
  | .snapshot h code _ => h.code = .go ∧ code = .go
  | .inspecting _ | .raising _ => False
  | _ => True

/-- No hook has stopped, and a hook under way was not started after a stop. -/
structure Before (c : Cfg σ V L N) : Prop where
  log : ∀ i ∈ c.log, i.Plain
  frames : ∀ f ∈ c.frames, f.going
  hook : ∀ h p, c.ctl = .hook h p → h.code = .go
  unarmed : (∃ h p, c.ctl = .hook h p) ∨ (∃ f ∈ c.frames, f.inHook) →
    c.trace.bailArmed = false ∧ c.trace.mode ≠ modeOff

/-- What is plain does not forbid anything. -/
theorem Item.Plain.quiet {i j : Item V L N} (h : i.Plain) : Quiet j i :=
  ⟨fun hs => absurd hs (by simp [h.1]), fun ha => absurd ha (by simp [h.2])⟩

theorem Before.pairwise {c : Cfg σ V L N} (h : Before c) : c.log.Pairwise Quiet :=
  List.pairwise_of_forall_mem_list fun _ _ i hi => (h.log i hi).quiet

theorem Before.not_stopped {c : Cfg σ V L N} (h : Before c) : ¬ ∃ i ∈ c.log, i.isStop := by
  rintro ⟨i, hi, hs⟩
  exact absurd hs (by simp [(h.log i hi).1])

section
variable {c : Cfg σ V L N}

theorem Before.goto (h : Before c) (p : Point V L N) : Before (c.goto p) :=
  ⟨h.log, h.frames, nofun, fun hu => h.unarmed (.inr (hu.resolve_left nofun))⟩

theorem Before.halt (h : Before c) (rc : Rc) : Before (c.halt rc) :=
  ⟨h.log, h.frames, nofun, fun hu => h.unarmed (.inr (hu.resolve_left nofun))⟩

theorem Before.record (h : Before c) {i : Item V L N} (hi : i.Plain) : Before (c.record i) :=
  ⟨List.forall_mem_cons.2 ⟨hi, h.log⟩, h.frames, h.hook, h.unarmed⟩

/-- A frame that is not of a hook is pushed. -/
theorem Before.push (h : Before c) {f : Frame V L N} (hf : f.inHook = false) (p : Point V L N) :
    Before (c.push f p) := by
  refine ⟨h.log, List.forall_mem_cons.2 ⟨?_, h.frames⟩, nofun, fun hu => h.unarmed (.inr ?_)⟩
  · cases f <;> trivial
  · obtain ⟨f', hf', hin⟩ := hu.resolve_left nofun
    rcases List.mem_cons.1 hf' with rfl | hf'
    · rw [hf] at hin
      cases hin
    · exact ⟨f', hf', hin⟩

theorem Before.heap (h : Before c) (s : σ) : Before { c with heap := s } :=
  ⟨h.log, h.frames, h.hook, h.unarmed⟩

theorem Before.pending (h : Before c) (v : Option V) : Before { c with pending := v } :=
  ⟨h.log, h.frames, h.hook, h.unarmed⟩

theorem Before.callHook (h : Before c) (hk : Trace.Hook) (todo : List (Work V)) (p : Point V L N) :
    Before (c.callHook hk todo p) := by
  unfold Cfg.callHook
  split
  · exact h.goto p
  · rename_i tr htr
    obtain ⟨hm, hb, _, _, rfl⟩ := Trace.Hook.start_some htr
    exact ⟨h.log, h.frames, fun h' p' he => by cases he; rfl, fun _ => ⟨hb, hm⟩⟩

end

theorem before_follows :
    Follows Eq (fun t u : Cfg σ V L N => t = u ∧ Before u) fun t _ => Before t where
  eq := fun ⟨h, _⟩ => ⟨_, _, _, _, _, rfl, rfl, h⟩
  heap := fun ⟨h, hb⟩ _ _ hs => ⟨by rw [h, hs], hb.heap _⟩
  pending := fun ⟨h, hb⟩ v => ⟨h ▸ rfl, hb.pending v⟩
  record := fun ⟨h, hb⟩ _ hi => ⟨h ▸ rfl, hb.record hi⟩
  goto := fun ⟨h, hb⟩ p => h ▸ hb.goto p
  halt := fun ⟨h, hb⟩ rc => h ▸ hb.halt rc
  push := fun ⟨h, hb⟩ _ hf p => h ▸ hb.push hf p
  callHook := fun ⟨h, hb⟩ hk todo p => h ▸ hb.callHook hk todo p

section
variable {E : Engine σ V L N} {c : Cfg σ V L N}

/-- A configuration in a hook that no stop has been asked of. -/
structure Asking (c : Cfg σ V L N) : Prop where
  log : ∀ i ∈ c.log, i.Plain
  frames : ∀ f ∈ c.frames, f.going
  unarmed : c.trace.bailArmed = false ∧ c.trace.mode ≠ modeOff

/-- The hook goes on. -/
theorem Asking.hook (h : Asking c) {hr : HookRun V} (hgo : hr.code = .go) (p : Point V L N) :
    Before { c with ctl := .hook hr p } :=
  ⟨h.log, h.frames, fun h' p' he => by cases he; exact hgo, fun _ => h.unarmed⟩

/-- The hook waits for a C function. -/
theorem Asking.push (h : Asking c) {f : Frame V L N} (hf : f.going) (p : Point V L N) :
    Before (c.push f p) :=
  ⟨h.log, List.forall_mem_cons.2 ⟨hf, h.frames⟩, nofun, fun _ => h.unarmed⟩

theorem Asking.record (h : Asking c) {i : Item V L N} (hi : i.Plain) : Asking (c.record i) :=
  ⟨List.forall_mem_cons.2 ⟨hi, h.log⟩, h.frames, h.unarmed⟩

/-- Without a code the callback of a hook changes nothing. -/
theorem Asking.replied_go (h : Asking c) {hr : HookRun V} (hgo : hr.code = .go)
    (p : Point V L N) : Before (Engine.replied c hr .go p) :=
  (h.record (i := .reply .go) ⟨rfl, rfl⟩).hook (by rw [hgo]; rfl) p

theorem Before.returnTo {r : Completion V} {f : Frame V L N} {fs : List (Frame V L N)}
    (h : Before c) (hf : c.frames = f :: fs) :
    Before (E.returnTo { c with frames := fs } r f) := by
  have hgoing : f.going := h.frames f (by simp [hf])
  have h' : Before { c with frames := fs } := by
    refine ⟨h.log, fun f' hf' => h.frames f' (by simp [hf, hf']), h.hook, fun hu => h.unarmed ?_⟩
    exact hu.imp id fun ⟨f', hf', hin⟩ => ⟨f', by simp [hf, hf'], hin⟩
  have hask (hin : f.inHook) (v : Option V) : Asking { c with frames := fs, pending := v } :=
    ⟨h.log, h'.frames, h.unarmed (.inr ⟨f, by simp [hf], hin⟩)⟩
  cases f with
  | js l => cases r <;> exact h'.goto _
  | closing l => exact h'.goto _
  | traced l => exact h'.goto _
  | native n => exact h'.goto _
  | converting hr file line p =>
    exact (hask rfl c.pending).hook (by exact hgoing) p
  | snapshot hr code p =>
    obtain ⟨hcode, rfl⟩ := hgoing
    exact (hask rfl none).replied_go hcode p
  | inspecting p => exact hgoing.elim
  | raising p => exact hgoing.elim
  | entry ph => exact before_follows.entryStep ⟨rfl, h'⟩ rfl r ph

/-- A step at a point of the program does not stop. -/
theorem Before.stepAt (h : Before c) (p : Point V L N) : Before (E.stepAt c p) := by
  refine before_follows.stepAt ⟨rfl, h⟩ (E.alikeAt_self ..) (fun l hp => ?_) fun r hp => ?_
  all_goals subst hp
  · simp only [Engine.stepAt, Engine.loopTop]
    split
    · exact h.goto _
    · exact h.callHook _ _ _
  · simp only [Engine.stepAt]
    split
    · exact h
    · exact h.returnTo ‹_›

end

/-! ## After a stop -/

/-- The entry point looks at an exception it has taken. -/
def Classifying : List (Frame V L N) → Prop
  | .entry (.classify _) :: _ | .entry (.classifyJob _) :: _ => True
  | _ => False

/-- Where a run can be while the stop unwinds: at no instruction and at no call. -/
def CalmAt : Point V L N → Prop
  | .top _ | .exception _ | .unwinding _ | .leaving .exception => c.pending.isSome
  | .thrown _ _ | .failed => True
  | .native _ | .returning _ => c.pending.isSome ∨ Classifying c.frames
  | _ => False

/-- The hook that was asked to stop ends: it may still take the snapshot of the code 2. -/
inductive Stopping (E : Engine σ V L N) (c : Cfg σ V L N) : Prop
  | hook {h : HookRun V} {p : Point V L N} (ctl : c.ctl = .hook h p) (todo : h.todo = [])
      (code : h.code ≠ .go) (point : StopPoint E c.frames p)
      (hookless : ∀ f ∈ c.frames, f.inHook = false)
  | inspect {p : Point V L N} {fs : List (Frame V L N)} (frames : c.frames = .inspecting p :: fs)
      (ctl : (∃ n, c.ctl = .run (.native n)) ∨ ∃ r, c.ctl = .run (.returning r))
      (point : StopPoint E fs p) (hookless : ∀ f ∈ fs, f.inHook = false)

/-- The stop error is on its way: no hook is under way, hooks do nothing, and the run is where it
unwinds or has ended well. -/
structure Calm (c : Cfg σ V L N) : Prop where
  armed : c.trace.bailArmed = true
  hookless : ∀ f ∈ c.frames, f.inHook = false
  point : ∀ p, c.ctl = .run p → CalmAt c p
  hook : ∀ h p, c.ctl ≠ .hook h p
  halt : ∀ rc, c.ctl = .halt rc → rc = .ok

/-- The host has asked to stop. -/
def Stopped : Prop := ∃ i ∈ c.log, i.isStop

/-- The configuration once the host has asked to stop. -/
structure After (E : Engine σ V L N) (c : Cfg σ V L N) : Prop where
  quiet : c.log.Pairwise Quiet
  stopped : Stopped c
  on : c.trace.mode ≠ modeOff
  phase : c.trace.bailArmed = false ∧ Stopping E c ∨ Calm c

section
variable {E : Engine σ V L N} {c : Cfg σ V L N}
variable {p : Point V L N} {host : Host V L N} {hr : HookRun V} {f : Frame V L N}
  {fs : List (Frame V L N)}

theorem Before.stops (h : Before c) : Stops c :=
  ⟨h.pairwise, fun _ _ hs => absurd hs h.not_stopped⟩

theorem After.stops (h : After E c) : Stops c := by
  refine ⟨h.quiet, fun rc hrc _ => ?_⟩
  rcases h.phase with ⟨-, hst⟩ | hc
  · cases hst with
    | hook ctl => rw [hrc] at ctl; cases ctl
    | inspect _ ctl => simp [hrc] at ctl
  · exact hc.halt rc hrc

/-- An item that is neither an event nor an instruction. -/
def Item.Silent (i : Item V L N) : Prop := i.isEvent = false ∧ i.isExec = false

theorem quiet_cons {log : List (Item V L N)} (h : log.Pairwise Quiet) {i : Item V L N}
    (hi : i.Silent) : (i :: log).Pairwise Quiet :=
  List.pairwise_cons.2 ⟨fun _ _ => ⟨fun _ => hi.1, fun _ => hi.2⟩, h⟩

theorem Cfg.nativeItem_silent (c : Cfg σ V L N) (n : N) : (c.nativeItem n).Silent := by
  unfold Cfg.nativeItem
  split <;> exact ⟨rfl, rfl⟩

/-- The stop error becomes pending. -/
theorem Stopping.arm (hp : StopPoint E c.frames p)
    (hf : ∀ f ∈ c.frames, f.inHook = false) : Calm (E.arm c p) := by
  refine ⟨rfl, hf, ?_, nofun, nofun⟩
  rintro p' hp'
  obtain rfl : p = p' := by simpa [Engine.arm] using hp'
  cases p with
  | top | exception => rfl
  | thrown => trivial
  | returning r => exact .inl rfl
  | _ => exact hp.elim

theorem Stopped.cons {log : List (Item V L N)} (h : ∃ i ∈ log, i.isStop) (j : Item V L N) :
    ∃ i ∈ j :: log, i.isStop :=
  let ⟨i, hi, hs⟩ := h
  ⟨i, List.mem_cons_of_mem j hi, hs⟩

@[simp] theorem finish_bailArmed (hk : Trace.Hook) (st : TraceState) :
    (hk.finish st false).bailArmed = st.bailArmed := by
  cases hk <;> rfl

@[simp] theorem finish_mode (hk : Trace.Hook) (st : TraceState) :
    (hk.finish st false).mode = st.mode := by
  cases hk <;> rfl

theorem After.arm (hq : c.log.Pairwise Quiet) (hs : Stopped c) (hm : c.trace.mode ≠ modeOff)
    (hp : StopPoint E c.frames p) (hf : ∀ f ∈ c.frames, f.inHook = false) :
    After E (E.arm c p) :=
  ⟨quiet_cons hq ⟨rfl, rfl⟩, Stopped.cons hs _, hm, .inr (Stopping.arm hp hf)⟩

/-- `raise_stop` in a hook that was asked to stop. -/
theorem After.raiseStop (hq : c.log.Pairwise Quiet) (hs : Stopped c) (hm : c.trace.mode ≠ modeOff)
    (hu : c.trace.bailArmed = false) (ht : E.stopTrace c.heap = none)
    (hp : StopPoint E c.frames p) (hf : ∀ f ∈ c.frames, f.inHook = false) :
    After E (E.raiseStop c p) := by
  rw [Engine.raiseStop, if_neg (by simp [hu]), ht]
  exact After.arm hq hs hm hp hf

theorem Stopping.step (h : Stopping E c) (hu : c.trace.bailArmed = false)
    (hok : StopOk E host c) (hq : c.log.Pairwise Quiet) (hs : Stopped c)
    (hm : c.trace.mode ≠ modeOff) : After E (E.step host c) := by
  cases h with
  | @hook h p ctl todo code point hookless =>
    simp only [StopOk, ctl, HookOk, todo] at hok
    simp only [Engine.step, ctl, Engine.hookStep, todo, Engine.finishHook]
    cases hc : h.code with
    | go => exact absurd hc code
    | stop =>
      exact After.raiseStop (by exact hq) (by exact hs) (by simpa using hm) (by simpa using hu)
        (by exact hok hc) (by exact point) (by exact hookless)
    | inspect =>
      simp only [finish_bailArmed, hu, Bool.false_eq_true, if_false]
      exact ⟨hq, hs, by simpa [Cfg.push] using hm, .inl ⟨by simpa [Cfg.push] using hu,
        .inspect rfl (.inl ⟨_, rfl⟩) point hookless⟩⟩
  | @inspect p fs frames ctl point hookless =>
    rcases ctl with ⟨n, ctl⟩ | ⟨r, ctl⟩
    · simp only [StopOk, ctl] at hok
      obtain ⟨r, hr⟩ := NStep.exists_ret (hok hs).1
      simp only [Engine.step, ctl, Engine.stepAt, Engine.nativeStep, hr]
      exact ⟨quiet_cons hq (c.nativeItem_silent n), Stopped.cons hs _, hm,
        .inl ⟨hu, .inspect frames (.inr ⟨r, rfl⟩) point hookless⟩⟩
    · simp only [StopOk, ctl] at hok
      have ht : E.stopTrace c.heap = none := hok hs (.inspecting p) (by simp [frames])
      simp only [Engine.step, ctl, Engine.stepAt, frames, Engine.returnTo]
      exact After.raiseStop (by exact hq) (by exact hs) (by exact hm) (by exact hu) (by exact ht)
        (by exact point) (by exact hookless)

/-- While the stop unwinds, a hook does nothing. -/
theorem callHook_armed (h : c.trace.bailArmed = true) (hk : Trace.Hook) (todo : List (Work V))
    (p : Point V L N) : c.callHook hk todo p = c.goto p := by
  have : hk.start c.trace = none := by
    cases hk <;> simp [Trace.Hook.start, h]
  rw [Cfg.callHook, this]

/-- The run goes on unwinding at `p`. -/
theorem Calm.goto (h : Calm c) (hp : CalmAt c p) : Calm (c.goto p) :=
  ⟨h.armed, h.hookless, fun p' hp' => by cases hp'; exact hp, nofun, nofun⟩

theorem Calm.pop (h : Calm c)
    (hf : c.frames = f :: fs) (p : Point V L N) (hp : CalmAt { c with frames := fs } p) :
    Calm ({ c with frames := fs }.goto p) :=
  ⟨h.armed, fun f' hf' => h.hookless f' (by rw [hf]; exact List.mem_cons_of_mem f hf'),
    fun p' hp' => by cases hp'; exact hp, nofun, nofun⟩

/-- An entry point takes the exception and asks whether it is the stop. -/
theorem Calm.classify (h : Calm c) (hfs : ∀ f ∈ fs, f.inHook = false)
    (hf : f.inHook = false) (hc : Classifying (f :: fs)) (n : N)
    (log : List (Item V L N)) :
    Calm ({ c with pending := none, log := log, frames := fs }.push f (.native n)) :=
  ⟨h.armed, List.forall_mem_cons.2 ⟨hf, hfs⟩, fun p' hp' => by cases hp'; exact .inr hc,
    nofun, nofun⟩

/-- The exception is handed on. -/
theorem Calm.returnTo {r : Completion V} (h : Calm c)
    (hf : c.frames = f :: fs) (hp : c.pending.isSome ∨ Classifying c.frames)
    (hok : ReturnOk E c r f) :
    Calm (E.returnTo { c with frames := fs } r f) ∧
      (E.returnTo { c with frames := fs } r f).log = c.log ∧
      (E.returnTo { c with frames := fs } r f).trace = c.trace := by
  have hfs : ∀ f' ∈ fs, f'.inHook = false := fun f' hf' =>
    h.hookless f' (by rw [hf]; exact List.mem_cons_of_mem f hf')
  have hseen (r : Completion V) : E.stopSeen { c with frames := fs } r = true := by
    simp [Engine.stopSeen, h.armed]
  have hsome (hnc : ¬ Classifying c.frames) : c.pending.isSome := hp.resolve_right hnc
  rw [hf] at hsome
  cases f with
  | js l =>
    cases r with
    | ok v =>
      have hd : E.direct = false := hok.resolve_left (by rintro ⟨⟩)
      simp only [Engine.returnTo, Engine.next, hd, Bool.false_eq_true, if_false]
      exact ⟨h.pop hf _ (hsome id), rfl, rfl⟩
    | exception => exact ⟨h.pop hf _ (hsome id), rfl, rfl⟩
  | closing l | traced l => exact ⟨h.pop hf _ (hsome id), rfl, rfl⟩
  | native n => exact ⟨h.pop hf _ (.inl (hsome id)), rfl, rfl⟩
  | converting | snapshot | inspecting | raising =>
    exact absurd (h.hookless _ (by rw [hf]; exact List.mem_cons_self)) (by simp [Frame.inHook])
  | entry ph =>
    cases ph with
    | eval | print | diagnose => exact hok.elim
    | modules | evalModule | awaitJob =>
      obtain rfl : r = .exception := hok
      exact ⟨h.pop hf _ trivial, rfl, rfl⟩
    | drainJob =>
      obtain rfl : r = .exception := hok
      exact ⟨h.classify hfs (by rfl) (by trivial) _ _, rfl, rfl⟩
    | classify exc =>
      simp only [Engine.returnTo, Engine.entryStep, hseen, if_true]
      exact ⟨⟨h.armed, hfs, by rintro _ ⟨⟩, by rintro _ _ ⟨⟩, fun rc hrc => by cases hrc; rfl⟩,
        rfl, rfl⟩
    | classifyJob exc =>
      have ho : E.oomHit c.heap = false := hok
      simp only [Engine.returnTo, Engine.entryStep, hseen, if_true, Engine.override, ho,
        Bool.false_eq_true, if_false]
      exact ⟨⟨h.armed, hfs, by rintro _ ⟨⟩, by rintro _ _ ⟨⟩, fun rc hrc => by cases hrc; rfl⟩,
        rfl, rfl⟩

/-- The search for a handler finds none. -/
theorem unwinding_none {l : L} (h : PassOk E c (.unwinding l)) :
    E.unwinding c l = c.goto (.leaving .exception) := by
  unfold Engine.unwinding
  split
  · rfl
  · have hn : (E.unwind l).isNone := h.resolve_left ‹_›
    split
    · rfl
    · simp [Unwind.isNone, *] at hn
    · simp [Unwind.isNone, *] at hn

theorem Calm.step (h : Calm c) (hok : StopOk E host c)
    (hq : c.log.Pairwise Quiet) (hs : Stopped c) (hm : c.trace.mode ≠ modeOff) :
    After E (E.step host c) := by
  cases hctl : c.ctl with
  | halt rc =>
    rw [show E.step host c = c by simp [Engine.step, hctl]]
    exact ⟨hq, hs, hm, .inr h⟩
  | hook hr p => exact absurd hctl (h.hook hr p)
  | run p =>
    have hp : CalmAt c p := h.point p hctl
    have hpass : PassOk E c p := by
      simp only [StopOk, hctl] at hok
      exact hok hs
    simp only [Engine.step, hctl]
    cases p with
    | top l =>
      have hc : E.loopTop c l = c.goto (.exception l) := if_pos ⟨hm, hp⟩
      simp only [Engine.stepAt, hc]
      exact ⟨hq, hs, hm, .inr (h.goto hp)⟩
    | thrown v l =>
      exact ⟨hq, hs, hm, .inr ⟨h.armed, h.hookless, fun p' hp' => by cases hp'; rfl,
        by rintro _ _ ⟨⟩, by rintro _ ⟨⟩⟩⟩
    | exception l =>
      have hnone : E.backtrace c.heap c.pending = none := hpass
      simp only [Engine.stepAt, Engine.exception, hnone]
      exact ⟨hq, hs, hm, .inr (h.goto hp)⟩
    | unwinding l =>
      simp only [Engine.stepAt, unwinding_none hpass]
      exact ⟨hq, hs, hm, .inr (h.goto hp)⟩
    | leaving r =>
      simp only [Engine.stepAt, callHook_armed h.armed]
      cases r with
      | ok v => exact hp.elim
      | exception => exact ⟨hq, hs, hm, .inr (h.goto (.inl hp))⟩
    | native n =>
      obtain ⟨hret, hpend⟩ := hpass
      obtain ⟨r, hr⟩ := NStep.exists_ret hret
      simp only [Engine.stepAt, Engine.nativeStep, hr]
      refine ⟨quiet_cons hq (c.nativeItem_silent n), Stopped.cons hs _, hm,
        .inr ⟨h.armed, h.hookless, ?_, by rintro _ _ ⟨⟩, by rintro _ ⟨⟩⟩⟩
      intro p' hp'
      cases hp'
      exact hp.imp hpend id
    | returning r =>
      simp only [Engine.stepAt]
      split
      · exact ⟨hq, hs, hm, .inr h⟩
      · rename_i f fs hf
        obtain ⟨hcalm, hlog, htr⟩ := h.returnTo hf hp (hpass f (by simp [hf]))
        exact ⟨by rw [hlog]; exact hq, by rw [Stopped, hlog]; exact hs, by rw [htr]; exact hm,
          .inr hcalm⟩
    | failed =>
      exact ⟨quiet_cons hq ⟨rfl, rfl⟩, Stopped.cons hs _, hm,
        .inr (h.classify h.hookless (by rfl) (by trivial) _ _)⟩
    | enter | dispatch | await | drain => exact hp.elim

/-! ## The host is asked -/

theorem Before.asking (h : Before c) (hctl : c.ctl = .hook hr p) : Asking c :=
  ⟨h.log, h.frames, h.unarmed (.inl ⟨hr, p, hctl⟩)⟩

theorem mergeStop_go {code : StopCode} : mergeStop .go code = code := by cases code <;> rfl

/-- The host has returned from its callback; it may have asked to stop at the last event. -/
theorem Asking.replied (h : Asking c) (hgo : hr.code = .go)
    (code : StopCode)
    (hstop : code ≠ .go →
      hr.todo = [] ∧ StopPoint E c.frames p ∧ ∀ f ∈ c.frames, f.inHook = false) :
    Before (Engine.replied c hr code p) ∨ After E (Engine.replied c hr code p) := by
  by_cases hc : code = .go
  · subst hc
    exact .inl (h.replied_go hgo p)
  · obtain ⟨htodo, hp, hf⟩ := hstop hc
    have hreply : (Item.reply code : Item V L N).Silent := ⟨rfl, rfl⟩
    have hstopped : (Item.reply code : Item V L N).isStop := by cases code <;> trivial
    refine .inr ⟨quiet_cons ?_ hreply, ⟨_, List.mem_cons_self, hstopped⟩, h.unarmed.2,
      .inl ⟨h.unarmed.1, ?_⟩⟩
    · exact List.pairwise_of_forall_mem_list fun _ _ i hi => (h.log i hi).quiet
    · exact .hook rfl htodo (by rw [hgo, mergeStop_go]; exact hc) hp hf

/-- An event is delivered. -/
theorem Asking.deliver (h : Asking c)
    (hgo : hr.code = .go) {e : Event} (hstop : MayStop E c hr.todo p (host c.log e)) :
    Before (E.deliver host c hr e p) ∨ After E (E.deliver host c hr e p) := by
  have h' : Asking (c.record (.event e)) := h.record ⟨rfl, rfl⟩
  simp only [Engine.deliver]
  split
  · rename_i hsnap
    have hcode : (host c.log e).code = .go := by
      by_contra hc
      simp [(hstop hc).2.1] at hsnap
    exact .inl (h'.push (f := .snapshot hr _ p) ⟨hgo, hcode⟩ _)
  · exact h'.replied hgo _ fun hc => ⟨(hstop hc).1, (hstop hc).2.2⟩

theorem Asking.nameRemember (h : Asking c) (a : Nat) (s : σ) (v : Option V) :
    Asking { c with heap := s, trace := Trace.nameRemember c.trace a, pending := v } := by
  refine ⟨h.log, h.frames, ?_⟩
  unfold Trace.nameRemember
  split <;> exact h.unarmed

/-- A name is announced. -/
theorem Asking.ensure {a : Nat}
    (h : Asking c) (hgo : hr.code = .go)
    (hstop : nameSeen c.trace a = false → ∀ s ∈ (E.atomCString a c.heap).2,
      MayStop E c hr.todo p (host c.log (.name a (Trace.clipName s)))) :
    Before (E.ensure host c hr a p) ∨ After E (E.ensure host c hr a p) := by
  unfold Engine.ensure
  split
  · exact .inl (h.hook hgo p)
  · rename_i hseen
    cases hs : (E.atomCString a c.heap).2 with
    | none =>
      simp only [hs]
      exact .inl ((h.nameRemember a _ _).hook hgo p)
    | some text =>
      simp only [hs]
      exact (h.nameRemember a _ c.pending).deliver hgo (hstop (by simpa using hseen) text hs)

/-- A step of a hook in which no stop has been asked for. -/
theorem Before.hookStep (h : Before c)
    (hctl : c.ctl = .hook hr p) (hok : HookOk E host c hr p) :
    Before (E.hookStep host c hr p) ∨ After E (E.hookStep host c hr p) := by
  have ha : Asking c := h.asking hctl
  obtain ⟨hk, todo, code⟩ := hr
  obtain rfl : code = .go := h.hook _ _ hctl
  rcases todo with - | ⟨a | ⟨v, file, line⟩ | e, todo⟩
  · refine .inl ⟨h.log, h.frames, nofun, fun _ => ⟨?_, ?_⟩⟩
    · exact (finish_bailArmed hk c.trace).trans ha.unarmed.1
    · exact (finish_mode hk c.trace).trans_ne ha.unarmed.2
  · exact ha.ensure rfl hok
  · -- user code may run in the conversion
    exact .inl (ha.push (by exact rfl) _)
  · exact ha.deliver rfl hok

/-! ## Runs -/

/-- One step. -/
theorem Before.step (h : Before c) (hok : StopOk E host c) :
    Before (E.step host c) ∨ After E (E.step host c) := by
  cases hctl : c.ctl with
  | run p =>
    simp only [Engine.step, hctl]
    exact .inl (h.stepAt p)
  | hook hr p =>
    simp only [StopOk, hctl] at hok
    simp only [Engine.step, hctl]
    exact h.hookStep hctl hok
  | halt rc =>
    simp only [Engine.step, hctl]
    exact .inl h

theorem After.step (h : After E c) (hok : StopOk E host c) :
    After E (E.step host c) := by
  rcases h.phase with ⟨hu, hst⟩ | hc
  · exact hst.step hu hok h.quiet h.stopped h.on
  · exact hc.step hok h.quiet h.stopped h.on

end

end

end ArenaJs.Interp
