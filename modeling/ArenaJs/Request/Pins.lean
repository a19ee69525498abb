import ArenaJs.Request.Reactor

/-!
# Determinism pins

A host pins `Math.random` and `Date.now` through the reactor, which keeps the latest pins and
applies them to the state of a request: after the reset every run starts with, and when it makes a
request.

`History` contains the states of a reactor under any sequence of pins, runs, request calls and JS
running in the entered request. In each of them the reactor holds the latest pins (`History.inv`), a
run starts with them applied (`arenaRunStart_seen`), and so does a new request that is made while no
frame is live (`arenaRequestNewR_cases`). They stay applied until the first draw, unless the host
pins again while the request is entered (`PinInv.undrawn`). A request made from inside JS is left
unpinned.
-/

namespace ArenaJs

open Function (update update_of_ne update_self update_idem update_eq_self)

variable {σ : Type}

/-! ## What a script sees -/

/-- `xorshift64star`: the draw and the next state. -/
def xorshift64star (x : UInt64) : UInt64 × UInt64 :=
  let x := x ^^^ (x >>> 12)
  let x := x ^^^ (x <<< 25)
  let x := x ^^^ (x >>> 27)
  (x * 0x2545F4914F6CDD1D, x)

/-- `js_math_random`: the 52 bits of the fraction that is returned. -/
def mathRandom (state : UInt64) : UInt64 := (xorshift64star state).1 >>> 12

/-- `date_now`; `clock` is `gettimeofday`. A negative pin is none. -/
def dateNow (pinned clock : Int) : Int := if 0 ≤ pinned then pinned else clock

/-- The latest pins of a history. -/
structure Pins where
  seed : Option UInt64
  date : Option Int

/-- The state `JS_SetRandomSeed` makes of the seed; without one `Math.random` draws from 0. -/
def Pins.state (p : Pins) : UInt64 :=
  match p.seed with
  | some seed => if seed ≠ 0 then seed else 1
  | none => 0

/-- The fields of a request's state that the pins are kept in. -/
def JSRequestState.pins (s : JSRequestState) :
    UInt64 × Int := (s.randomStateReq, s.dateNowPinnedReq)

/-- The state has the pins applied and nothing drawn. -/
def Pins.Seen (p : Pins) (s : JSRequestState) : Prop := s.pins = (p.state, p.date.getD (-1))

/-! ## Histories -/

/-- A call on the reactor, from the host or from a callback inside JS, or JS running in the entered
request: a draw of `Math.random`, a read of `Date.now`, or anything else, which leaves the request's
state as `st` and its arena as `ra`. -/
inductive PinEv (σ : Type) where
  | setRandomSeed (seed : UInt64)
  | setDateNow (ms : Int)
  | run (src : String)
  | runModule (entryName entrySrc : String)
  | requestNew (requestKb mode : Int) (id : ReqId) (ds : List Decision)
  | requestEnter (req : Option Req)
  | requestLeave
  | random
  | dateNow (clock : Int)
  | engine (st : JSRequestState) (ra : RequestArena σ) (m : Mem)

/-- What the API asks of its callers, as in `Ev.Ok`. JS runs with a request entered, and writes the
generator's state by drawing from it only, the pinned date not at all. -/
def PinEv.Ok (P : Process σ) (r : RtId) : PinEv σ → Prop
  | .requestNew _ mode id ds =>
    (Ev.newRequest r 0 (if mode = 0 then .gc else .bump) id ds : Ev σ).Ok P.rts
  | .requestEnter req => (Ev.enterRequest r req : Ev σ).Ok P.rts
  | .random | .dateNow _ => (P.rts r).da.cur.isSome
  | .engine st ra m => (Ev.engine r st ra m).Ok P.rts ∧ st.pins = ((P.rts r).slots ra.id).pins
  | _ => True

/-- `arena_run_r` and `arena_run_module_r` up to the evaluation of the source. -/
def arenaRunStart (H : Host σ) (R : Reactor) (rt : Runtime σ) : Option (Runtime σ) :=
  arenaReapplyPins R (jsResetRequestArena H rt)

/-- A run up to the first instruction of its source. With no request entered it ends before that
(`runs_idle`). -/
def beginRun (H : Host σ) (P : Process σ) (r : RtId) : Option (Process σ) :=
  if (P.rts r).da.cur = none then
    some (P.setRt r { P.rts r with template := (P.reactors r).afterRun (P.rts r).template })
  else (arenaRunStart H (P.reactors r) (P.rts r)).map (P.setRt r)

/-- The process after an event on reactor `r`. -/
def pinStep (H : Host σ) (P : Process σ) (r : RtId) : PinEv σ → Option (Process σ)
  | .setRandomSeed seed =>
    let P := P.setReactor r { P.reactors r with randomSeed := seed, hasRandomSeed := true }
    (jsSetRandomSeed (P.rts r) seed).map (P.setRt r)
  | .setDateNow ms =>
    let P := P.setReactor r { P.reactors r with dateNowMs := ms, hasDateNow := true }
    (jsSetDateNow (P.rts r) ms).map (P.setRt r)
  | .run _ | .runModule _ _ => beginRun H P r
  | .requestNew kb mode id ds => (arenaRequestNewR H P r kb mode id ds).map Prod.snd
  | .requestEnter req => (jsEnterRequest P.rts r req).map fun (_, M) => { P with rts := M }
  | .requestLeave => (jsLeaveRequest P.rts r).map fun (_, M) => { P with rts := M }
  | .random => ((P.rts r).modifyReq fun s =>
      { s with randomStateReq := (xorshift64star s.randomStateReq).2 }).map (P.setRt r)
  | .dateNow _ => some P
  | .engine st ra m =>
    (step H P.rts (.engine r st ra m)).map fun (_, M) => { P with rts := M }

/-- What a script reads: the fraction of a random number, or a time. -/
inductive Reading where
  | random (bits : UInt64)
  | time (ms : Int)
  deriving DecidableEq

/-- What a draw or a read gives the script, from the state `s`. -/
def PinEv.readIn (s : UInt64 × Int) : PinEv σ → Option Reading
  | .random => some (.random (mathRandom s.1))
  | .dateNow clock => some (.time (ArenaJs.dateNow s.2 clock))
  | _ => none

/-- What an event gives the script that is running. -/
def PinEv.reading (P : Process σ) (r : RtId) (ev : PinEv σ) : Option Reading :=
  (P.rts r).reqState.bind fun s => ev.readIn s.pins

/-- What it gives as the first reading under the pins. -/
def Pins.reading (p : Pins) (ev : PinEv σ) : Option Reading := ev.readIn (p.state, p.date.getD (-1))

/-- The event neither draws a number, nor sets a pin, nor starts a run. -/
def PinEv.Quiet : PinEv σ → Prop
  | .setRandomSeed _ | .setDateNow _ | .run _ | .runModule _ _ | .random => False
  | _ => True

/-- The pins after an event. -/
def PinEv.pin (p : Pins) : PinEv σ → Pins
  | .setRandomSeed seed => { p with seed := some seed }
  | .setDateNow ms => { p with date := some ms }
  | _ => p

/-- The most recent pins. -/
def lastPins (evs : List (PinEv σ)) : Pins := evs.foldl PinEv.pin ⟨none, none⟩

/-- The histories of reactor `r`, oldest event first: its runtime was just frozen and nothing was
pinned at the start. -/
inductive History (H : Host σ) (r : RtId) : List (PinEv σ) → Process σ → Prop
  | init {P : Process σ} : (∀ r, ∃ rt, PreFreeze rt ∧ TemplateFresh rt.template ∧
      P.rts r = jsFreezeRuntime H rt) → P.reactors r = ⟨false, 0, false, 0⟩ → History H r [] P
  | step {P P' : Process σ} {evs : List (PinEv σ)} {ev : PinEv σ} : History H r evs P →
      ev.Ok P r → pinStep H P r ev = some P' → History H r (evs ++ [ev]) P'

section
variable {H : Host σ} {R : Reactor} {rt : Runtime σ} {ra : RequestArena σ}
  {id : ReqId} {ds : List Decision} {p : Pins} {P P' : Process σ} {r : RtId}
  {evs : List (PinEv σ)} {ev : PinEv σ}
variable {M : Machine σ} {rt' : Runtime σ}

/-! ## Writes to the entered request's state -/

section
variable (h : RtOk rt) (hs : rt.da.selected = some ra)
include h hs

theorem RtOk.modifyReq_selected
    (f : JSRequestState → JSRequestState) : rt.modifyReq f =
      some { rt with slots := update rt.slots ra.id (f (rt.slots ra.id)) } := by
  simp [Runtime.modifyReq, h.reqState_selected hs, Runtime.setReqState, h.cell_selected hs,
    if_neg (h.slot_ne hs), h.find_slot hs]

end

theorem RtOk.withSlots (h : RtOk rt) (slots : ReqId → JSRequestState) : RtOk { rt with slots } :=
  h.congr rfl rfl rfl rfl rfl rfl

/-- `arena_reapply_pins` with a request entered. -/
theorem RtOk.reapplyPins (h : RtOk rt) (hs : rt.da.selected = some ra) :
    arenaReapplyPins R rt =
      some { rt with slots := update rt.slots ra.id (R.pin (rt.slots ra.id)) } := by
  have h1 := h.withSlots (update rt.slots ra.id { rt.slots ra.id with
    randomStateReq := if R.randomSeed ≠ 0 then R.randomSeed else 1 })
  unfold arenaReapplyPins Reactor.pin
  cases hr : R.hasRandomSeed <;> cases hd : R.hasDateNow <;>
    simp only [Bool.false_eq_true, if_false, if_true, Option.bind_eq_bind, Option.bind_some,
      jsSetRandomSeed, jsSetDateNow, h.modifyReq_selected hs, update_eq_self]
  rw [RtOk.modifyReq_selected h1 hs]
  simp only [update_self, update_idem]

/-! ## Pins in a fresh state -/

/-- The reactor holds the pins. -/
structure Pins.Held (p : Pins) (R : Reactor) : Prop where
  seed : p.seed = if R.hasRandomSeed then some R.randomSeed else none
  date : p.date = if R.hasDateNow then some R.dateNowMs else none

/-- A fresh state with the reactor's pins applied. -/
theorem Pins.Held.seen (h : p.Held R) (rt : Runtime σ) (mode : ReqMode) :
    p.Seen (R.pin (freshReqState rt mode)) := by
  refine Prod.ext ?_ ?_
  · simp only [JSRequestState.pins, Reactor.pin, Pins.state, h.seed, freshReqState]
    cases R.hasRandomSeed <;> rfl
  · simp only [JSRequestState.pins, Reactor.pin, h.date, freshReqState]
    cases R.hasDateNow <;> rfl

/-- A run starts with the pins. -/
theorem arenaRunStart_seen (h : RtOk rt) (hc : rt.da.cur = some id) (hp : p.Held R) :
    ∃ rt', arenaRunStart H R rt = some rt' ∧ RtOk rt' ∧ rt'.template = rt.template ∧
      rt.KeepsBut rt.da.cur rt' ∧ rt'.da.cur = rt.da.cur ∧ p.Seen (rt'.slots id) := by
  obtain ⟨hok, hk⟩ := jsResetRequestArena_spec (H := H) h
  have hne : rt.da.cur ≠ none := by rw [hc]; exact nofun
  obtain ⟨hh, hc', -, -⟩ := resetRequest_heads (H := H) h.ids
  obtain ⟨ra, hs, rfl⟩ := DualArena.selected_of_heads (hc'.trans hc) (hh ▸ h.live id hc)
  have hreset : jsResetRequestArena H rt = { rt with
      slots := update rt.slots ra.id
        (freshReqState { rt with da := resetRequest H rt.da } ra.mode),
      da := { resetRequest H rt.da with stateCell := some ra.slot } } := by
    simp only [jsResetRequestArena, if_neg hne]
    rw [relocateReqState_of_selected { rt with da := resetRequest H rt.da } hs]
    rfl
  have hs' : (jsResetRequestArena H rt).da.selected = some ra := by
    rw [hreset]
    exact hs
  refine ⟨_, hok.reapplyPins hs', hok.withSlots _, by rw [hreset], ?_, ?_, ?_⟩
  · intro r hr hner
    obtain ⟨hm, hsl⟩ := hk r hr hner
    refine ⟨hm, ?_⟩
    rw [← hsl]
    refine update_of_ne (fun he => hner ?_) _ _
    rw [hc, he]
  · rw [hreset]
    exact hc'
  · simp only [update_self, hreset]
    exact hp.seen _ _

/-! ## New requests -/

theorem jsSelectRequest_slots (rt : Runtime σ) (cur : Option ReqId) :
    (jsSelectRequest rt cur).slots = rt.slots := by
  unfold jsSelectRequest
  rfl

/-- No frame is live exactly when the current state has none. -/
theorem atJobBoundary_eq {s : JSRequestState} (h : rt.reqState = some s) :
    atJobBoundary rt = some s.currentStackFrame.isNone := by
  rw [atJobBoundary, h]
  rfl

section
variable (h : RtOk (M r)) (hb : atJobBoundary (M r) = some true)
include h hb

/-- Entering a request of the runtime while no frame is live. -/
theorem jsEnterRequest_select
    (id : ReqId) : jsEnterRequest M r (some ⟨r, id⟩) =
      some (0, update M r (jsSelectRequest (M r) (some id))) := by
  simp [jsEnterRequest, h.arena, hb]

theorem jsLeaveRequest_select : jsLeaveRequest M r =
      some (0, update M r (jsSelectRequest (M r) none)) := by
  simp [jsLeaveRequest, h.arena, hb]

/-- Going back to the request that was entered before. -/
theorem back_select
    (cur : Option ReqId) :
    (if (cur.map (Req.mk r)).isSome then jsEnterRequest M r (cur.map (Req.mk r))
      else jsLeaveRequest M r) = some (0, update M r (jsSelectRequest (M r) cur)) := by
  cases cur with
  | none => exact jsLeaveRequest_select h hb
  | some id => exact jsEnterRequest_select h hb id

end

/-- Every request but one keeps its arena and its state, whatever else happens to the states. -/
theorem Runtime.KeepsBut.update (h : rt.KeepsBut (some id) rt')
    (st : JSRequestState) :
    rt.KeepsBut (some id) { rt' with slots := update rt'.slots id st } := by
  intro ra hra hne
  obtain ⟨hm, hs⟩ := h ra hra hne
  exact ⟨hm, (update_of_ne (fun he => hne (congrArg some he.symm)) _ _).trans hs⟩

theorem Runtime.KeepsBut.select {x : Option ReqId} (h : rt.KeepsBut x rt')
    (cur : Option ReqId) : rt.KeepsBut x (jsSelectRequest rt' cur) := by
  intro ra hra hne
  rw [jsSelectRequest_requests, jsSelectRequest_slots]
  exact h ra hra hne

/-- What `arena_request_new_r` does after the request was made: it is entered, pinned and left
again, when no frame is live. -/
def pinNew (R : Reactor) (rt : Runtime σ) (id : ReqId) : Runtime σ :=
  jsSelectRequest { jsSelectRequest rt (some id) with
    slots := update rt.slots id (R.pin (rt.slots id)) } rt.da.cur

theorem pinNew_ok (h : RtOk rt) (hl : ∃ x ∈ rt.da.heads, x.1 = id) : RtOk (pinNew R rt id) := by
  have hsel : RtOk (jsSelectRequest rt (some id)) :=
    h.toRtShape.select h.arena h.mode fun i hi => by cases hi; exact hl
  have hsl := hsel.withSlots (update rt.slots id (R.pin (rt.slots id)))
  exact hsl.toRtShape.select hsl.arena hsl.mode h.live

/-- `arena_request_new_r` on a runtime in order. -/
theorem arenaRequestNewR_cases (h : RtOk (P.rts r)) (hf : TemplateFresh (P.rts r).template)
    {kb mode : Int} (hok : (PinEv.requestNew kb mode id ds : PinEv σ).Ok P r) :
    ∃ req rt', arenaRequestNewR H P r kb mode id ds = some (req, P.setRt r rt') ∧ RtOk rt' ∧
      rt'.template = (P.rts r).template ∧ (P.rts r).KeepsBut (some id) rt' ∧
      (req = none ∧ rt' = P.rts r ∨ (∃ ra ∈ rt'.da.requests, ra.id = id) ∧
        (¬ FrameLive (P.rts r) → ∃ (rt0 : Runtime σ) (m : ReqMode),
          rt'.slots id = (P.reactors r).pin (freshReqState rt0 m))) := by
  generalize hcap : (if 0 < kb then kb.toNat else 4096) * 1024 = cap
  generalize hmode : (if mode = 0 then ReqMode.gc else ReqMode.bump) = md
  obtain ⟨hok1, hk1, hc1, -⟩ := jsNewRequest_spec (H := H) h cap md hok.1 hok.2
  simp only [arenaRequestNewR, hcap, hmode]
  rcases jsNewRequest_cases (H := H) h.toRtShape h.arena cap md hok.1 hok.2 with
    he | ⟨slot, rt2, he, hh, -, -, -, -, ht, -, rt0, m, hfresh, ht0⟩
  · exact ⟨none, P.rts r, by rw [he]; rfl, h, rfl, .refl _ _, .inl ⟨rfl, rfl⟩⟩
  · rw [he] at hok1 hk1 hc1 ⊢
    rw [← jsSelectRequest_slots rt2 (P.rts r).da.cur] at hfresh
    generalize hrt1 : jsSelectRequest rt2 (P.rts r).da.cur = rt1 at hok1 hk1 hc1 hfresh
    change RtOk rt1 at hok1
    change (P.rts r).KeepsBut (some id) rt1 at hk1
    change rt1.da.cur = (P.rts r).da.cur at hc1
    have ht1 : rt1.template = (P.rts r).template := by rw [← hrt1, ← ht]; rfl
    have hlive : ∃ x ∈ rt1.da.heads, x.1 = id :=
      ⟨(id, slot), by rw [← hrt1, jsSelectRequest_heads, hh]; exact .head _, rfl⟩
    have hmem : ∃ ra ∈ rt1.da.requests, ra.id = id := by
      obtain ⟨x, hx, hxi⟩ := hlive
      obtain ⟨ra, hra, rfl⟩ := DualArena.mem_heads.1 hx
      exact ⟨ra, hra, hxi⟩
    have hP1 : (P.setRt r rt1).rts r = rt1 := update_self _ _ _
    -- the new request does not change what the current state is
    have hstate : rt1.reqState = (P.rts r).reqState := by
      rw [hok1.reqState_eq, h.reqState_eq, hc1, ht1]
      cases hc : (P.rts r).da.cur with
      | none => rfl
      | some i =>
        obtain ⟨x, hx, rfl⟩ := h.live i hc
        obtain ⟨ra, hra, rfl⟩ := DualArena.mem_heads.1 hx
        exact congrArg some (hk1 ra hra fun hi => hok.1 ra hra (Option.some.inj hi).symm).2
    simp only [Option.bind_eq_bind]
    rcases h.atJobBoundary with ⟨hl, hb⟩ | ⟨hnl, hb⟩
    · -- from inside JS `JS_EnterRequest` refuses
      have hb1 : atJobBoundary rt1 = some false := by rw [atJobBoundary, hstate]; exact hb
      have hent : jsEnterRequest (P.setRt r rt1).rts r (some ⟨r, id⟩) =
          some (-1, (P.setRt r rt1).rts) := by
        simp [jsEnterRequest, hP1, hok1.arena, hb1]
      refine ⟨some ⟨r, id⟩, rt1, ?_, hok1, ht1, hk1, .inr ⟨hmem, fun hn => absurd hl hn⟩⟩
      rw [hent]
      rfl
    · have hb1 : atJobBoundary rt1 = some true := by rw [atJobBoundary, hstate]; exact hb
      have hsel : RtOk (jsSelectRequest rt1 (some id)) :=
        hok1.toRtShape.select hok1.arena hok1.mode fun i hi => by cases hi; exact hlive
      obtain ⟨ra, hs, hid⟩ := hsel.selected (jsSelectRequest_cur _ _)
      have hpin := hsel.reapplyPins (R := P.reactors r) hs
      rw [hid, jsSelectRequest_slots] at hpin
      have hok3 := hsel.withSlots
        (update rt1.slots id ((P.reactors r).pin (rt1.slots id)))
      have hframe : (update rt1.slots id
          ((P.reactors r).pin (rt1.slots id)) ra.id).currentStackFrame = none := by
        rw [hid, update_self, hfresh]
        simp [Reactor.pin, freshReqState, ht0, hf.frame]
      have hb3 := (atJobBoundary_eq (hok3.reqState_selected hs)).trans
        (congrArg (fun o => some (Option.isNone o)) hframe)
      generalize hrt3 : ({ jsSelectRequest rt1 (some id) with
        slots := update rt1.slots id ((P.reactors r).pin (rt1.slots id)) } : Runtime σ) = rt3
        at hpin hok3 hb3
      have hent := jsEnterRequest_select (M := (P.setRt r rt1).rts) (hP1.symm ▸ hok1)
        (hP1.symm ▸ hb1) id
      rw [hP1] at hent
      refine ⟨some ⟨r, id⟩, pinNew (P.reactors r) rt1 id, ?_, pinNew_ok hok1 hlive, ht1,
        (hk1.update _).select _, .inr ⟨?_, fun _ => ⟨rt0, m, ?_⟩⟩⟩
      · rw [hent]
        simp only [Option.bind_some, if_true, update_self, Process.setRt]
        rw [hpin]
        have hcur : jsCurrentRequest (update P.rts r rt1) r =
            (P.rts r).da.cur.map (Req.mk r) := by
          simp [jsCurrentRequest, hok1.arena, hc1]
        have hM : update P.rts r rt3 r = rt3 := update_self _ _ _
        have hback := back_select (M := update P.rts r rt3) (hM.symm ▸ hok3)
          (hM.symm ▸ hb3) (P.rts r).da.cur
        simp only [Option.bind_some, update_idem, hcur]
        rw [hback]
        simp only [Option.bind_some, update_idem, update_self, pinNew, hrt3, hc1]
        rfl
      · rw [pinNew, jsSelectRequest_requests]
        exact hmem
      · rw [pinNew, jsSelectRequest_slots, ← hfresh]
        exact update_self _ _ _

/-! ## Steps -/

/-- What every event keeps. -/
structure PinInv (P : Process σ) (r : RtId) (p : Pins) : Prop where
  ok : ∀ r, RtOk (P.rts r)
  fresh : TemplateFresh (P.rts r).template
  held : p.Held (P.reactors r)

/-- What an event leaves of the requests: all of them stay, those that are not entered keep their
state, and a quiet event leaves the entered one its pins. -/
structure PinStep (ev : PinEv σ) (rt rt' : Runtime σ) : Prop where
  others : rt.KeepsBut rt.da.cur rt'
  stays : ∀ id, rt.da.cur = some id → ∃ ra ∈ rt'.da.requests, ra.id = id
  quiet : ev.Quiet → ∀ id, rt.da.cur = some id → (rt'.slots id).pins = (rt.slots id).pins

theorem setRt_self (P : Process σ) (r : RtId) (rt : Runtime σ) : (P.setRt r rt).rts r = rt :=
  update_self _ _ _

/-- A step that changes the runtime of `r`. -/
theorem PinInv.setRt (h : PinInv P r p) (hr : RtOk rt) (hf : TemplateFresh rt.template) :
    PinInv (P.setRt r rt) r p :=
  ⟨forall_update h.ok hr, by rw [setRt_self]; exact hf, h.held⟩

/-- A request with that name. -/
theorem RtOk.entered (h : RtOk rt) (hc : rt.da.cur = some id) :
    ∃ ra ∈ rt.da.requests, ra.id = id := by
  obtain ⟨ra, hs, rfl⟩ := h.selected hc
  exact ⟨ra, (DualArena.selected_mem hs).1, rfl⟩

/-- An event that leaves every request alone. -/
theorem PinStep.same (h : RtOk rt) (hk : rt.KeepsBut none rt') : PinStep ev rt rt' := by
  refine ⟨fun ra hra _ => hk ra hra nofun, fun id hc => ?_, fun _ id hc => ?_⟩ <;>
    obtain ⟨ra, hra, rfl⟩ := h.entered hc
  · exact ⟨ra, (hk ra hra nofun).1, rfl⟩
  · rw [(hk ra hra nofun).2]

/-- An event that writes the entered request only. -/
theorem PinStep.write (h : RtOk rt') (hc : rt'.da.cur = rt.da.cur) (hk : rt.KeepsBut rt.da.cur rt')
    (hq : ev.Quiet → ∀ id, rt.da.cur = some id → (rt'.slots id).pins = (rt.slots id).pins) :
    PinStep ev rt rt' :=
  ⟨hk, fun _ hi => h.entered (hc.trans hi), hq⟩

/-- A write through the state pointer goes to the entered request, or to the template. -/
theorem RtOk.modifyReq (h : RtOk rt) (hf : TemplateFresh rt.template)
    {f : JSRequestState → JSRequestState} (hff : ∀ s, TemplateFresh s → TemplateFresh (f s)) :
    ∃ rt', rt.modifyReq f = some rt' ∧ RtOk rt' ∧ TemplateFresh rt'.template ∧
      rt.KeepsBut rt.da.cur rt' ∧ rt'.da = rt.da := by
  cases hc : rt.da.cur with
  | none =>
    have hs : rt.da.selected = none := by simp only [DualArena.selected, hc, Option.bind_none]
    have hidle : Idle rt := ⟨h.mode, hc, by rw [h.cell, Runtime.expected, hs]⟩
    exact ⟨_, hidle.modifyReq f, h.congr rfl rfl rfl rfl rfl rfl, hff _ hf,
      fun _ hr _ => ⟨hr, rfl⟩, rfl⟩
  | some id =>
    obtain ⟨ra, hs, rfl⟩ := h.selected hc
    refine ⟨_, h.modifyReq_selected hs f, h.withSlots _, hf, fun r hr hne => ⟨hr, ?_⟩, rfl⟩
    exact update_of_ne (fun he => hne (congrArg some he.symm)) _ _

/-- Setting a pin, or drawing a number. -/
theorem PinInv.setPin (h : PinInv P r p) {R : Reactor} {q : Pins} (hq : q.Held R)
    {f : JSRequestState → JSRequestState} (hff : ∀ s, TemplateFresh s → TemplateFresh (f s))
    (hev : ¬ ev.Quiet) :
    ∃ P', ((P.rts r).modifyReq f).map ((P.setReactor r R).setRt r) = some P' ∧ PinInv P' r q ∧
      PinStep ev (P.rts r) (P'.rts r) := by
  obtain ⟨rt', hm, hr, hf, hk, hda⟩ := (h.ok r).modifyReq h.fresh hff
  have hR : (P.setReactor r R).reactors r = R := update_self _ _ _
  have h' : PinInv (P.setReactor r R) r q := ⟨h.ok, h.fresh, by rw [hR]; exact hq⟩
  refine ⟨_, by rw [hm, Option.map_some], h'.setRt hr hf, ?_⟩
  rw [setRt_self]
  exact .write hr (by rw [hda]) hk fun hq => absurd hq hev

/-- The start of a run. -/
theorem PinInv.beginRun (h : PinInv P r p) (hev : ¬ ev.Quiet) : ∃ P', beginRun H P r = some P' ∧
    PinInv P' r p ∧ PinStep ev (P.rts r) (P'.rts r) ∧ ∀ id, (P.rts r).da.cur = some id →
      p.Seen ((P'.rts r).slots id) := by
  cases hc : (P.rts r).da.cur with
  | none =>
    refine ⟨_, if_pos hc, h.setRt ((h.ok r).congr rfl rfl rfl rfl rfl rfl) ?_,
      .same (h.ok r) ?_, nofun⟩
    · exact ⟨rfl, rfl, h.fresh.frame, h.fresh.gc⟩
    · rw [setRt_self]
      exact fun _ hr _ => ⟨hr, rfl⟩
  | some id =>
    obtain ⟨rt', hstart, hr, ht, hk, hc', hseen⟩ := arenaRunStart_seen (H := H) (h.ok r) hc h.held
    have hne : (P.rts r).da.cur ≠ none := by rw [hc]; exact nofun
    refine ⟨P.setRt r rt', ?_, h.setRt hr (ht ▸ h.fresh), ?_⟩
    · rw [ArenaJs.beginRun, if_neg hne, hstart, Option.map_some]
    · rw [setRt_self]
      exact ⟨.write hr hc' hk fun hq => absurd hq hev, by rintro i ⟨⟩; exact hseen⟩

/-- A request call that selects, or does nothing. -/
theorem PinInv.select (h : PinInv P r p) (hok : ∀ r, RtOk (M r))
    (hM : M = P.rts ∨ ∃ cur, M = update P.rts r (jsSelectRequest (P.rts r) cur)) :
    PinInv { P with rts := M } r p ∧ PinStep ev (P.rts r) (M r) := by
  rcases hM with rfl | ⟨cur, rfl⟩
  · exact ⟨h, .same (h.ok r) (.refl _ _)⟩
  · have hself : update P.rts r (jsSelectRequest (P.rts r) cur) r = _ := update_self _ _ _
    refine ⟨⟨hok, ?_, h.held⟩, ?_⟩
    · show TemplateFresh (update P.rts r (jsSelectRequest (P.rts r) cur) r).template
      rw [hself]
      exact h.fresh
    · rw [hself]
      exact .same (h.ok r) (.select (.refl _ _) cur)

/-- One event. -/
theorem PinInv.step (h : PinInv P r p) (hok : ev.Ok P r) : ∃ P', pinStep H P r ev = some P' ∧
    PinInv P' r (ev.pin p) ∧ PinStep ev (P.rts r) (P'.rts r) := by
  cases ev with
  | setRandomSeed seed =>
    exact h.setPin (R := { P.reactors r with randomSeed := seed, hasRandomSeed := true })
      (q := { p with seed := some seed }) ⟨rfl, h.held.date⟩
      (fun s hs => ⟨hs.exception, hs.memory, hs.frame, hs.gc⟩) not_false
  | setDateNow ms =>
    exact h.setPin (R := { P.reactors r with dateNowMs := ms, hasDateNow := true })
      (q := { p with date := some ms }) ⟨h.held.seed, rfl⟩
      (fun s hs => ⟨hs.exception, hs.memory, hs.frame, hs.gc⟩) not_false
  | random =>
    obtain ⟨rt', hm, hr, hf, hk, hda⟩ := (h.ok r).modifyReq h.fresh
      (f := fun s => { s with randomStateReq := (xorshift64star s.randomStateReq).2 })
      fun s hs => ⟨hs.exception, hs.memory, hs.frame, hs.gc⟩
    refine ⟨P.setRt r rt', by rw [pinStep, hm, Option.map_some], h.setRt hr hf, ?_⟩
    rw [setRt_self]
    exact .write hr (by rw [hda]) hk False.elim
  | dateNow clock => exact ⟨P, rfl, h, .same (h.ok r) (.refl _ _)⟩
  | run src =>
    obtain ⟨P', he, hi, hk, -⟩ := h.beginRun (H := H)
      (show ¬ (PinEv.run src : PinEv σ).Quiet from not_false)
    exact ⟨P', he, hi, hk⟩
  | runModule name src =>
    obtain ⟨P', he, hi, hk, -⟩ := h.beginRun (H := H)
      (show ¬ (PinEv.runModule name src : PinEv σ).Quiet from not_false)
    exact ⟨P', he, hi, hk⟩
  | requestNew kb mode id ds =>
    obtain ⟨req, rt', he, hr, ht, hk, -⟩ := arenaRequestNewR_cases (H := H) (h.ok r) h.fresh hok
    refine ⟨P.setRt r rt', by rw [pinStep, he, Option.map_some], h.setRt hr (ht ▸ h.fresh),
      .same (h.ok r) ?_⟩
    intro ra hra _
    rw [setRt_self]
    exact hk ra hra fun hi => hok.1 ra hra (Option.some.inj hi).symm
  | requestEnter req =>
    obtain ⟨rc, M, he, hs⟩ := jsEnterRequest_step h.ok hok
    refine ⟨{ P with rts := M }, by rw [pinStep, he, Option.map_some], h.select hs.ok ?_⟩
    rcases jsEnterRequest_cases he with ⟨-, rfl⟩ | ⟨q, -, -, -, rfl⟩
    · exact .inl rfl
    · exact .inr ⟨_, rfl⟩
  | requestLeave =>
    rcases jsLeaveRequest_step (r := r) h.ok with ⟨-, he⟩ | ⟨-, hr, he⟩
    · exact ⟨P, by rw [pinStep, he, Option.map_some], h, .same (h.ok r) (.refl _ _)⟩
    · exact ⟨_, by
        rw [pinStep, he, Option.map_some], h.select (forall_update h.ok hr) (.inr ⟨_, rfl⟩)⟩
  | engine st ra m =>
    obtain ⟨hok, hpins⟩ := hok
    obtain ⟨rc, M, he, hs⟩ : ∃ rc M, step H P.rts (.engine r st ra m) = some (rc, M) ∧
        StepOk P.rts (.engine r st ra m) rc M := step_ok h.ok hok trivial
    obtain ⟨ra0, hsel, hid, -⟩ := hok
    have hcur : (P.rts r).da.cur = some ra.id := hid ▸ (DualArena.selected_mem hsel).2
    cases he
    have hok' := hs.ok r
    have hkeep := hs.keeps r
    refine ⟨_, rfl, ⟨hs.ok, ?_, h.held⟩, ?_⟩
    · show TemplateFresh (update P.rts r _ r).template
      rw [update_self]
      exact h.fresh
    · rw [update_self] at hok' hkeep
      show PinStep _ (P.rts r) (update P.rts r _ r)
      rw [update_self]
      refine .write hok' rfl (fun x hx hne => hkeep x hx fun hi => hne ?_) fun _ id hi => ?_
      · exact hcur.trans (congrArg (fun q : Req => some q.id) (Option.some.inj hi))
      · obtain rfl := Option.some.inj (hcur.symm.trans hi)
        rw [← hpins]
        exact congrArg JSRequestState.pins (update_self _ _ _)

/-- In every history the reactor holds the most recent pins. -/
theorem History.inv (h : History H r evs P) : PinInv P r (lastPins evs) := by
  induction h with
  | @init P hP hR =>
    refine ⟨fun r' => ?_, ?_, ?_⟩
    · obtain ⟨rt, hpre, -, hr⟩ := hP r'
      exact hr ▸ hpre.ok
    · obtain ⟨rt, -, hf, hr⟩ := hP r
      rw [hr, jsFreezeRuntime_template]
      exact hf
    · rw [hR]
      exact ⟨rfl, rfl⟩
  | step _ hok hstep ih =>
    obtain ⟨P', he, hi, -⟩ := ih.step hok
    rw [hstep] at he
    cases he
    rw [lastPins, List.foldl_append]
    exact hi

/-- The continuations that leave request `id` its first readings: while it is entered no number is
drawn, no pin is set and no run starts. -/
def Undrawn (H : Host σ) (r : RtId) (id : ReqId) : Process σ → Process σ → Prop :=
  Relation.ReflTransGen fun P P' => ∃ ev : PinEv σ, ev.Ok P r ∧
    ((P.rts r).da.cur = some id → ev.Quiet) ∧ pinStep H P r ev = some P'

/-- Up to its first draw a request has the pins it started with. -/
theorem PinInv.undrawn {P'' : Process σ} (h : PinInv P r p)
    (hl : ∃ ra ∈ (P.rts r).da.requests, ra.id = id) (hu : Undrawn H r id P P'') :
    (∃ q, PinInv P'' r q) ∧ (∃ ra ∈ (P''.rts r).da.requests, ra.id = id) ∧
      ((P''.rts r).slots id).pins = ((P.rts r).slots id).pins := by
  induction hu with
  | refl => exact ⟨⟨p, h⟩, hl, rfl⟩
  | @tail P1 P2 _ hstep ih =>
    obtain ⟨ev, hok, hquiet, he⟩ := hstep
    obtain ⟨⟨q, hi⟩, ⟨ra, hra, rfl⟩, hs⟩ := ih
    obtain ⟨_, he', hi', hk⟩ := hi.step hok
    cases he.symm.trans he'
    by_cases hc : (P1.rts r).da.cur = some ra.id
    · exact ⟨⟨_, hi'⟩, hk.stays _ hc, (hk.quiet (hquiet hc) _ hc).trans hs⟩
    · obtain ⟨hm, hsl⟩ := hk.others ra hra hc
      exact ⟨⟨_, hi'⟩, ⟨ra, hm, rfl⟩, (congrArg _ hsl).trans hs⟩

/-- The event starts a run in request `id`, or makes that request while no frame is live. -/
def PinEv.Starts (P : Process σ) (r : RtId) (P' : Process σ) (id : ReqId) : PinEv σ → Prop
  | .run _ | .runModule _ _ => (P.rts r).da.cur = some id
  | .requestNew _ _ i _ =>
    i = id ∧ ¬ FrameLive (P.rts r) ∧ ∃ ra ∈ (P'.rts r).da.requests, ra.id = id
  | _ => False

/-- A run and a new request start with the most recent pins. -/
theorem PinInv.starts (h : PinInv P r p) (hok : ev.Ok P r) (he : pinStep H P r ev = some P')
    (hst : ev.Starts P r P' id) :
    (∃ ra ∈ (P'.rts r).da.requests, ra.id = id) ∧ p.Seen ((P'.rts r).slots id) := by
  have hrun : ∀ ev : PinEv σ, ¬ ev.Quiet → ArenaJs.beginRun H P r = some P' →
      (P.rts r).da.cur = some id →
      (∃ ra ∈ (P'.rts r).da.requests, ra.id = id) ∧ p.Seen ((P'.rts r).slots id) := by
    intro ev hev hbegin hc
    obtain ⟨_, he', -, hk, hseen⟩ := h.beginRun (H := H) hev
    cases hbegin.symm.trans he'
    exact ⟨hk.stays id hc, hseen id hc⟩
  cases ev with
  | run src => exact hrun (.run src) not_false he hst
  | runModule name src => exact hrun (.runModule name src) not_false he hst
  | requestNew kb mode i ds =>
    obtain ⟨rfl, hnl, hlive⟩ := hst
    refine ⟨hlive, ?_⟩
    obtain ⟨req, rt', hnew, -, -, hk, hseen⟩ := arenaRequestNewR_cases (H := H) (h.ok r) h.fresh hok
    rw [pinStep, hnew, Option.map_some] at he
    cases he
    rw [setRt_self] at hlive ⊢
    rcases hseen with ⟨-, rfl⟩ | ⟨-, hseen⟩
    · obtain ⟨ra, hra, hid⟩ := hlive
      exact absurd hid (hok.1 ra hra)
    · obtain ⟨rt0, m, hs⟩ := hseen hnl
      rw [hs]
      exact h.held.seen _ _
  | _ => exact hst.elim

/-- Every event of every history: when it starts a run in a request, or makes the request while no
frame is live, the first `Math.random` draw and the `Date.now` values up to it are those of the most
recent pins before the event, unless the host pins again while the request is entered. -/
theorem pins_sticky (h : History H r evs P) (hok : ev.Ok P r) : ∃ P', pinStep H P r ev = some P' ∧
    ∀ id, ev.Starts P r P' id → ∀ P'', Undrawn H r id P' P'' → (P''.rts r).da.cur = some id →
      ∀ read : PinEv σ, read.reading P'' r = (lastPins evs).reading read := by
  have hi := h.inv
  obtain ⟨P', he, hi', -⟩ := hi.step hok
  refine ⟨P', he, fun id hst P'' hu hcur read => ?_⟩
  obtain ⟨hlive, hseen⟩ := hi.starts hok he hst
  obtain ⟨⟨q, hi''⟩, -, hpins⟩ := hi'.undrawn hlive hu
  rw [PinEv.reading, (hi''.ok r).reqState_eq, hcur, Option.bind_some, Pins.reading, hpins, hseen]

end

/-! ## A request made from inside JS -/

/-- `frozenProcess` with the seed 5 pinned. -/
def seededProcess : Process BumpSpace :=
  (pinStep bumpHost frozenProcess 0 (.setRandomSeed 5)).get rfl

theorem seededProcess_history : History bumpHost 0 [.setRandomSeed 5] seededProcess := by
  refine .step (.init (fun _ => ⟨zeroRuntime, ⟨⟨?_, ?_, ?_⟩, ?_⟩, ⟨rfl, rfl, rfl, rfl⟩, rfl⟩) rfl)
    trivial (Option.some_get _).symm
  · decide +kernel
  · decide +kernel
  · decide +kernel
  · exact ⟨_, (Option.some_get (show zeroRuntime.da.selected.isSome = true from rfl)).symm⟩

/-- `arena_request_new_r`. -/
def newEvent : PinEv BumpSpace := .requestNew 64 0 1 [some ⟨2 ^ 26, 2 ^ 26 + 2 ^ 20⟩]

/-- A request is made. -/
def newProcess : Process BumpSpace := (pinStep bumpHost seededProcess 0 newEvent).get rfl

/-- The seed 7 is pinned, with the first request entered. -/
def repinnedProcess :
    Process BumpSpace := (pinStep bumpHost newProcess 0 (.setRandomSeed 7)).get rfl

/-- The new request is entered. -/
def turnedProcess : Process BumpSpace :=
  (pinStep bumpHost repinnedProcess 0 (.requestEnter (some ⟨0, 1⟩))).get rfl

/-- The new request draws from the seed 5. -/
theorem pins_sticky_new : PinEv.random.reading turnedProcess 0 = some (.random (mathRandom 5)) := by
  have hok : newEvent.Ok seededProcess 0 := by
    refine ⟨by decide +kernel, fun s hs => ?_⟩
    cases List.mem_singleton.1 hs
    decide +kernel
  obtain ⟨P', he, hread⟩ := pins_sticky seededProcess_history hok
  obtain rfl : P' = newProcess := Option.some.inj (he.symm.trans (Option.some_get rfl).symm)
  have hpin : Undrawn bumpHost 0 1 newProcess repinnedProcess :=
    .single ⟨.setRandomSeed 7, trivial, fun hc => absurd hc (by decide +kernel),
      (Option.some_get _).symm⟩
  have hturn : Undrawn bumpHost 0 1 newProcess turnedProcess := by
    refine hpin.tail ⟨.requestEnter (some ⟨0, 1⟩), ?_, fun _ => trivial, (Option.some_get _).symm⟩
    rintro _ ⟨⟩
    show ∃ ra ∈ (repinnedProcess.rts 0).da.requests, ra.id = 1
    decide +kernel
  have hboundary : ¬ FrameLive (seededProcess.rts 0) :=
    ((seededProcess_history.inv.ok 0).atJobBoundary.resolve_left fun h =>
      absurd h.2 (by decide +kernel)).1
  exact hread 1 ⟨rfl, hboundary, by decide +kernel⟩ _ hturn (by decide +kernel) .random

/-- The entered request's arena. -/
def enteredArena : RequestArena BumpSpace := (seededProcess.rts 0).da.selected.get rfl

/-- JS that entered a function, in the request of `seededProcess`. -/
def callbackEvent : PinEv BumpSpace :=
  .engine { (seededProcess.rts 0).slots 0 with currentStackFrame := some 1 } enteredArena
    (seededProcess.rts 0).da.mem

/-- A callback of that function is running. -/
def callbackProcess : Process BumpSpace := (pinStep bumpHost seededProcess 0 callbackEvent).get rfl

/-- The callback calls `arena_request_new_r`. -/
def callbackNew : Process BumpSpace := (pinStep bumpHost callbackProcess 0 newEvent).get rfl

/-- The frame ends. -/
def returnEvent : PinEv BumpSpace :=
  .engine ((seededProcess.rts 0).slots 0) enteredArena (seededProcess.rts 0).da.mem

/-- The callback and its caller have returned. -/
def returnedProcess : Process BumpSpace := (pinStep bumpHost callbackNew 0 returnEvent).get rfl

/-- The new request is entered. -/
def callbackTurn : Process BumpSpace :=
  (pinStep bumpHost returnedProcess 0 (.requestEnter (some ⟨0, 1⟩))).get rfl

/-- A request made from a callback draws 0 first, whatever seed is pinned. -/
theorem callback_request_unpinned :
    History bumpHost 0 [.setRandomSeed 5, callbackEvent] callbackProcess ∧
    newEvent.Ok callbackProcess 0 ∧ pinStep bumpHost callbackProcess 0 newEvent = some callbackNew ∧
    Undrawn bumpHost 0 1 callbackNew callbackTurn ∧ (callbackTurn.rts 0).da.cur = some 1 ∧
    PinEv.random.reading callbackTurn 0 ≠
      (lastPins [.setRandomSeed 5, callbackEvent]).reading (.random : PinEv BumpSpace) := by
  have hok : callbackEvent.Ok seededProcess 0 :=
    ⟨⟨enteredArena, (Option.some_get (show (seededProcess.rts 0).da.selected.isSome = true from
      rfl)).symm, rfl, rfl⟩, rfl⟩
  have hback : returnEvent.Ok callbackNew 0 := by
    refine ⟨⟨(callbackNew.rts 0).da.selected.get (by decide +kernel),
      (Option.some_get _).symm, ?_, ?_⟩,
      ?_⟩ <;> decide +kernel
  have hreturn : Undrawn bumpHost 0 1 callbackNew returnedProcess :=
    .single ⟨returnEvent, hback, fun _ => trivial, (Option.some_get _).symm⟩
  refine ⟨.step seededProcess_history hok (Option.some_get _).symm,
    ⟨by decide +kernel, fun s hs => ?_⟩,
    (Option.some_get _).symm, hreturn.tail ⟨.requestEnter (some ⟨0, 1⟩), ?_, fun _ => trivial,
      (Option.some_get _).symm⟩, by decide +kernel, by decide +kernel⟩
  · cases List.mem_singleton.1 hs
    decide +kernel
  · rintro _ ⟨⟩
    show ∃ ra ∈ (returnedProcess.rts 0).da.requests, ra.id = 1
    decide +kernel

end ArenaJs
