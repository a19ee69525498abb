import ArenaJs.Engine.Prototype
import ArenaJs.Engine.Run

/-!
# Walks along a prototype chain

The loops that follow a chain, those of `JS_GetPropertyInternal`, `JS_HasProperty`,
`JS_SetPropertyInternal2`, `JS_OrdinaryIsInstanceOf` and the cycle check of
`JS_SetPrototypeInternal`, end because the chain does (`Chains.walk`). A loop looks at an object,
goes on to its prototype or ends, and looks at an object again only after an initialiser has run. A
getter or setter that it calls may itself run on; that is set apart from the loop (`Calls.awaited`).
The calls after which a loop goes on leave the objects as they are (`Calls.Settles`), as those of a
context do whose exotic lookups and initialisers only compute their result (`exec_settles`).
-/

namespace ArenaJs.Heap

/-! ## Ending in time -/

/-- From `s` the program does not run out of fuel. -/
def InTime {α : Type} (s : State) (x : M α) : Prop :=
  Ends s x (fun _ _ => True) fun e _ => e ≠ .timeout

/-- The objects that exist are as they were, as far as finding a property goes. -/
structure Intact (s s' : State) : Prop where
  nextObj : s.nextObj ≤ s'.nextObj
  tab : s'.shadowTab = s.shadowTab
  obj : ∀ q, s.Present q → s'.obj q = s.obj q
  proto : ∀ q, s.Present q → (s'.shape (s.obj q).shape).proto = (s.shape (s.obj q).shape).proto
  props : ∀ q, s.Present q → (s'.shape (s.obj q).shape).props = (s.shape (s.obj q).shape).props

/-- The shape of `p` has the entries it had, wherever it is now. -/
structure Ready (p sh : Ptr) (s s' : State) : Prop where
  nextObj : s'.nextObj = s.nextObj
  tab : s'.shadowTab = s.shadowTab
  shape : (s'.obj p).shape = sh
  props : (s'.shape sh).props = (s.shape (s.obj p).shape).props

/-- The calls, where one that runs out of fuel of its own is not followed: what runs out of fuel is
then the loop that makes the calls. -/
def Calls.awaited (k : Calls) : Calls :=
  ⟨k.fuel, fun op => tryCatch (k.run op) fun e => throw (if e = .timeout then .excluded else e)⟩

/-- Calls that do not run out of fuel. -/
class Calls.Prompt (k : Calls) : Prop where
  run : ∀ op s, InTime s (k.run op)

/-- The code that a walk calls and goes on after: a `get_own_property` that finds nothing, and an
initialiser, for which the shape of the object has been made its own. -/
structure Calls.Settles (k : Calls) (s : State) : Prop where
  fuel : k.fuel ≠ 0
  getOwnProperty : ∀ p prop s', Intact s s' → Ends s' (k.run (.call (.getOwnProperty p prop)))
    (fun r s'' => r.toDesc = none → Intact s s'') fun _ _ => True
  autoinit : ∀ id p prop s' s1, Intact s s' → Ready p (s1.obj p).shape s' s1 →
    Ends s1 (k.run (.call (.autoinit id p prop))) (fun _ s2 => Intact s1 s2) fun _ _ => True

section
variable {env : Env} {k : Calls} {s s' s'' : State} {p q : Ptr} {α β : Type}
variable (prop : Atom)

theorem InTime.bind {x : M α} {f : α → M β} (hx : InTime s x)
    (hf : ∀ a s', InTime s' (f a)) : InTime s (x >>= f) :=
  Ends.bind hx fun a s' _ => hf a s'

instance : k.awaited.Prompt where
  run op s := by
    refine Ends.tryCatch (Q := fun _ _ => True) (R := fun _ _ => True) ?_ fun e s' _ => ?_
    · unfold Ends
      split <;> trivial
    · show (if e = .timeout then Stop.excluded else e) ≠ .timeout
      split
      · rintro ⟨⟩
      · assumption

theorem Calls.Settles.awaited (hk : k.Settles s) : k.awaited.Settles s where
  fuel := hk.fuel
  getOwnProperty p prop s' hs := (hk.getOwnProperty p prop s' hs).tryCatch fun _ _ _ => trivial
  autoinit id p prop s' s1 hs hr := (hk.autoinit id p prop s' s1 hs hr).tryCatch fun _ _ _ =>
    trivial

theorem Intact.refl (s : State) : Intact s s :=
  ⟨le_rfl, rfl, fun _ _ => rfl, fun _ _ => rfl, fun _ _ => rfl⟩

theorem Intact.present (h : Intact s s') (hq : s.Present q) : s'.Present q := by
  cases q with
  | base => trivial
  | req n => exact lt_of_lt_of_le hq h.nextObj
  | shadow n =>
    rw [State.Present, h.tab]
    exact hq

theorem Intact.trans (h : Intact s s') (h' : Intact s' s'') : Intact s s'' where
  nextObj := h.nextObj.trans h'.nextObj
  tab := h'.tab.trans h.tab
  obj q hq := (h'.obj q (h.present hq)).trans (h.obj q hq)
  proto q hq := by
    rw [← h.obj q hq, h'.proto q (h.present hq), h.obj q hq, h.proto q hq]
  props q hq := by
    rw [← h.obj q hq, h'.props q (h.present hq), h.obj q hq, h.props q hq]

theorem Intact.active (h : Intact s s') (q : Ptr) : s'.active env q = s.active env q := by
  cases q <;> simp only [State.active, h.tab]

/-- The prototype read in the later state. -/
theorem Intact.proto_eq (h : Intact s s') (hq : s.Present q) :
    (s'.shape (s'.obj q).shape).proto = (s.shape (s.obj q).shape).proto := by
  rw [h.obj q hq, h.proto q hq]

/-- A round reads the prototype of the object that stands for `p`. -/
theorem Intact.ends_proto {f : JSObject → JSShape → M α} {Q : α → State → Prop}
    {F : Stop → State → Prop} (hs : Intact s s') (hp : s.Named p)
    (h : ∀ o sh, sh.proto = s.proto env p → Ends s' (f o sh) Q F) :
    Ends s' (do let o ← getObj (s.active env p); let sh ← getShape o.shape; f o sh) Q F :=
  Ends.bind_ok (a := s'.obj (s.active env p)) rfl <|
    Ends.bind_ok (a := s'.shape (s'.obj (s.active env p)).shape) rfl <|
      h _ _ (hs.proto_eq (State.present_active hp.present))

/-! ## The induction along the chain -/

/-- One round of a loop over the chain of `p0` ends if the rest of the loop does, from any state
in which the objects are as in `s`. A round has fuel for one more look at its object. -/
def RoundEnds (env : Env) (s : State) (p0 : Ptr) {α : Type} (step : Nat → Ptr → M α) : Prop :=
  ∀ p fuel s', s.Named p → OnChain (s.next env) p0 p → Intact s s' →
    (∀ q, s.proto env p = some q → ∀ s'', Intact s s'' → InTime s'' (step (fuel + 1) q)) →
    InTime s' (step (fuel + 2) p)

/-- A loop over the chain of `p` ends if each of its rounds does. -/
theorem Chains.walk (h : Chains env s) (hp : s.Named p) :
    ∃ n, ∀ {α : Type} (step : Nat → Ptr → M α), RoundEnds env s p step →
      ∀ fuel ≥ n, ∀ s', Intact s s' → InTime s' (step fuel p) := by
  induction p using h.grounded.induction with
  | _ p ih =>
    have hrest : ∃ n, ∀ q, s.proto env p = some q → ∀ {α : Type} (step : Nat → Ptr → M α),
        RoundEnds env s p step → ∀ fuel ≥ n, ∀ s', Intact s s' → InTime s' (step fuel q) := by
      cases hq : s.proto env p with
      | none => exact ⟨0, nofun⟩
      | some q =>
        have hnext : s.next env p = some q := (State.next_of_named hp).trans hq
        obtain ⟨n, hn⟩ := ih q hnext (h.named_next hnext)
        refine ⟨n, ?_⟩
        rintro _ ⟨⟩ α step hstep
        -- the chain of the prototype is part of this one
        exact hn step fun r fuel s' hr hqr => hstep r fuel s' hr (.head hnext hqr)
    obtain ⟨n, hn⟩ := hrest
    refine ⟨n + 2, fun step hstep fuel hf s' hs' => ?_⟩
    obtain ⟨fuel, rfl⟩ : ∃ m, fuel = m + 2 := ⟨fuel - 2, by omega⟩
    exact hstep p fuel s' hp .refl hs' fun q hq s'' hs'' =>
      hn q hq step hstep (fuel + 1) (by omega) s'' hs''

/-- The same for a loop that starts at the prototype of `p`. -/
theorem Chains.walk_next (h : Chains env s) (hp : s.Named p) :
    ∃ n, ∀ q, s.proto env p = some q → ∀ {α : Type} (step : Nat → Ptr → M α),
      RoundEnds env s q step → ∀ fuel ≥ n, ∀ s', Intact s s' → InTime s' (step fuel q) := by
  cases hq : s.proto env p with
  | none => exact ⟨0, nofun⟩
  | some q =>
    obtain ⟨n, hn⟩ := h.walk (h.named_next ((State.next_of_named hp).trans hq))
    exact ⟨n, by rintro _ ⟨⟩; exact hn⟩

/-! ## Initialisers -/

/-- Same objects, same entries. -/
structure SameEntries (s s' : State) : Prop where
  nextObj : s'.nextObj = s.nextObj
  tab : s'.shadowTab = s.shadowTab
  obj : ∀ q, s'.obj q = s.obj q
  props : ∀ q, (s'.shape q).props = (s.shape q).props

theorem shapeHashUnlink_entries (sh : Ptr) :
    Ends s (shapeHashUnlink env sh) (fun _ s' => SameEntries s s') fun e _ => e ≠ .timeout := by
  unfold shapeHashUnlink
  split
  · exact ⟨rfl, rfl, fun _ => rfl, fun _ => rfl⟩
  · refine Ends.bind_ok (a := s) rfl ?_
    split
    · exact ⟨rfl, rfl, fun q => by cases q <;> rfl, fun q => by cases q <;> rfl⟩
    · split
      · exact ⟨rfl, rfl, fun q => by cases q <;> rfl, fun q => by cases q <;> rfl⟩
      · exact nofun

theorem freeShape_entries (sh : Ptr) :
    Ends s (freeShape env sh) (fun _ s' => SameEntries s s') fun e _ => e ≠ .timeout := by
  unfold freeShape
  split
  · exact ⟨rfl, rfl, fun _ => rfl, fun _ => rfl⟩
  · refine Ends.bind_ok (a := ())
      (t := s.update (Arena.mapShape fun o => { o with refCount := o.refCount - 1 }) sh) rfl ?_
    refine Ends.bind_ok (a := _) rfl ?_
    have hdrop : SameEntries s
        (s.update (Arena.mapShape fun o => { o with refCount := o.refCount - 1 }) sh) := by
      refine ⟨nextObj_update _, shadowTab_update _, fun q => obj_mapShape _ _ _, fun q => ?_⟩
      rw [shape_mapShape]
      split
      · rename_i e
        rw [e]
      · rfl
    simp only [when]
    split
    · refine (shapeHashUnlink_entries sh).mono (fun _ s' h => ?_) fun _ _ => id
      exact ⟨h.nextObj.trans hdrop.nextObj, h.tab.trans hdrop.tab,
        fun q => (h.obj q).trans (hdrop.obj q), fun q => (h.props q).trans (hdrop.props q)⟩
    · exact hdrop

theorem unshareShape_ready (p : Ptr) :
    Ends s (unshareShape env p (s.obj p).shape) (fun sh s' => Ready p sh s s')
      fun e _ => e ≠ .timeout := by
  have hclone : Ends s (cloneShape env (s.obj p).shape) (fun sh s' => s'.nextObj = s.nextObj ∧
      s'.shadowTab = s.shadowTab ∧ (s'.shape sh).props = (s.shape (s.obj p).shape).props)
      fun e _ => e ≠ .timeout := by
    refine (cloneShape_ends _).mono ?_ ?_
    · rintro _ _ ⟨rfl, rfl⟩
      exact ⟨rfl, rfl, by rw [shape_withShape, if_pos rfl]⟩
    · rintro _ _ ⟨rfl, -⟩ ⟨⟩
  unfold unshareShape
  refine hclone.bind fun sh s1 h1 => ?_
  obtain ⟨hn, ht, hprops⟩ := h1
  refine (freeShape_entries _).bind fun _ s2 h2 => ?_
  refine Ends.bind_ok (a := ()) rfl ⟨?_, ?_, ?_, ?_⟩
  · rw [nextObj_update, h2.nextObj, hn]
  · rw [shadowTab_update, h2.tab, ht]
  · rw [obj_mapObj, if_pos rfl]
  · rw [shape_mapObj, h2.props, hprops]

theorem shapePrepareUpdate_ready (p : Ptr) :
    Ends s (shapePrepareUpdate env p) (fun sh s' => Ready p sh s s') fun e _ => e ≠ .timeout := by
  unfold shapePrepareUpdate
  refine Ends.bind_ok (a := s.obj p) rfl ?_
  refine Ends.bind_ok (a := s.shape (s.obj p).shape) rfl ?_
  split
  · exact unshareShape_ready p
  · split
    · split
      · exact unshareShape_ready p
      · refine (shapeHashUnlink_entries _).bind fun _ s1 h1 => ?_
        refine Ends.bind_ok (a := ()) rfl ⟨?_, ?_, ?_, ?_⟩
        · rw [nextObj_update, h1.nextObj]
        · rw [shadowTab_update, h1.tab]
        · rw [obj_mapShape, h1.obj]
        · rw [shape_mapShape, if_pos rfl]
          exact h1.props _
    · exact ⟨rfl, rfl, rfl, rfl⟩

/-- New flags for an entry do not change which entry an atom has. -/
theorem find?_modify_flags (flags : PropFlags) (l : List ShapeProp) (i n : Nat) :
    ((l.modify i fun e => { e with flags := flags }).zipIdx n).find?
        (fun e => e.1.atom == some prop) =
      ((l.zipIdx n).find? fun e => e.1.atom == some prop).map fun e =>
        if e.2 = n + i then ({ e.1 with flags := flags }, e.2) else e := by
  induction l generalizing i n with
  | nil => simp
  | cons e l ih =>
    cases i with
    | zero =>
      simp only [List.modify_zero_cons, List.zipIdx_cons, List.find?_cons, Nat.add_zero]
      split
      · simp
      · cases hf : (l.zipIdx (n + 1)).find? fun e => e.1.atom == some prop with
        | none => rfl
        | some r =>
          have hlt := (List.mem_zipIdx (List.mem_of_find?_eq_some hf)).1
          simp only [Option.map_some]
          rw [if_neg (by omega)]
    | succ i =>
      simp only [List.modify_succ_cons, List.zipIdx_cons, List.find?_cons]
      split
      · simp
      · rw [ih]
        simp only [Nat.add_assoc, Nat.add_comm 1 i]

/-- `JS_AutoInitProperty`: the property is an ordinary one afterwards. -/
theorem autoInitProperty_ends [k.Prompt] (hk : k.Settles s) (hs : Intact s s') {prop : Atom}
    {f : Found} (hp : s'.Present p) (hf : s'.findOwn p prop = some f) :
    Ends s' (autoInitProperty env k p prop f)
      (fun _ s'' => ∃ f', s''.findOwn p prop = some f' ∧ f'.flags.kind = .normal)
      fun e _ => e ≠ .timeout := by
  unfold autoInitProperty
  refine (shapePrepareUpdate_ready p).bind fun sh s1 h1 => ?_
  have hp1 : s1.Present p := (State.present_congr h1.nextObj h1.tab).2 hp
  have hcall : ∀ id, Ends s1 (onThrow (k.value (.call (.autoinit id p prop))) fun e => do
        setShapeFlags sh f.idx { f.flags with kind := .normal }
        setSlot p f.idx (.value .undefined)
        throw (.throw e)) (fun _ s' => Intact s1 s') fun e _ => e ≠ .timeout := by
    intro id
    have hrun := (Calls.Prompt.run (k := k) (.call (.autoinit id p prop)) s1).and
      (hk.autoinit id p prop s' s1 hs (by rw [h1.shape]; exact h1))
    refine Ends.tryCatch (hrun.bind fun r s2 h => Ends.pure h.2) fun e s2 he => ?_
    cases e with
    | throw e => rintro ⟨⟩
    | timeout => exact absurd rfl he.1
    | crash | excluded => rintro ⟨⟩
  refine (hcall _).bind fun val s2 h2 => ?_
  refine Ends.bind_ok (a := ()) rfl ?_
  refine Ends.modify ?_
  have hshape : (s2.obj p).shape = sh := by rw [h2.obj p hp1, h1.shape]
  have hprops : (s2.shape sh).props = (s'.shape (s'.obj p).shape).props := by
    rw [← h1.props, ← h1.shape]
    exact h2.props p hp1
  obtain ⟨e, he, rfl⟩ := Option.map_eq_some_iff.1 hf
  have hfind := find?_modify_flags prop { e.1.flags with kind := .normal }
    (s'.shape (s'.obj p).shape).props e.2 0
  rw [JSShape.find] at he
  rw [he, Nat.zero_add, Option.map_some, if_pos rfl] at hfind
  refine ⟨⟨e.2, { e.1.flags with kind := .normal },
    ((s2.obj p).prop.set e.2 (.value val)).getD e.2 (.value .undefined), (s2.obj p).classId⟩,
      ?_, rfl⟩
  simp [State.findOwn, JSObject.findOwn, JSShape.find, obj_mapObj, obj_mapShape, shape_mapObj,
    shape_mapShape, hshape, hprops, hfind]

/-! ## The loops -/

theorem Calls.Prompt.bool [k.Prompt] (op : Op) : InTime s (k.bool op) :=
  InTime.bind (Calls.Prompt.run op s) fun _ _ => trivial

theorem Calls.Prompt.value [k.Prompt] (op : Op) : InTime s (k.value op) :=
  InTime.bind (Calls.Prompt.run op s) fun _ _ => trivial

/-- A look at an exotic object that finds nothing leaves the objects as they are. -/
theorem Calls.Settles.desc [k.Prompt] (hk : k.Settles s) (hs : Intact s s') (p : Ptr)
    (prop : Atom) : Ends s' (k.desc (.call (.getOwnProperty p prop)))
      (fun d s'' => d = none → Intact s s'') fun e _ => e ≠ .timeout :=
  ((Calls.Prompt.run (k := k) _ s').and (hk.getOwnProperty p prop s' hs)).mono
    (fun _ _ h => h.2) (fun _ _ h => h.1) |>.bind fun _ _ h => Ends.pure h

theorem readVarRef_inTime (cell : Ptr) (prop : Atom) : InTime s (readVarRef cell prop) := by
  unfold readVarRef
  refine Ends.bind_ok (a := s.cell cell) rfl ?_
  split
  · exact nofun
  · trivial

theorem readFound_inTime [k.Prompt] (thisObj : JSValue) (f : Found) :
    InTime s (readFound k prop thisObj f) := by
  unfold readFound
  split
  · trivial
  · trivial
  · exact Calls.Prompt.value _
  · exact readVarRef_inTime _ _
  · exact nofun

theorem callValue_inTime [k.Prompt] (f thisObj : JSValue) (args : List JSValue) :
    InTime s (callValue k f thisObj args) := by
  unfold callValue
  split
  · exact Calls.Prompt.value _
  · exact nofun

/-- How a look at an object ends that began in `s`: with a result, or the loop goes on. -/
abbrev Looks {α : Type} (s s' : State) (x : M (Option α)) : Prop :=
  Ends s' x (fun r s' => r = none → Intact s s') fun e _ => e ≠ .timeout

theorem looks_some {x : M α} (h : InTime s' x) : Looks s s' (do return some (← x)) :=
  Ends.bind h fun _ _ _ => Ends.pure nofun

theorem looks_done {x : M Bool} (h : InTime s' x) :
    Looks s s' (do return some (SetSearch.done (← x))) :=
  Ends.bind h fun _ _ _ => Ends.pure nofun

theorem looks_none (h : Intact s s') : Looks s s' (pure (none : Option α)) := fun _ => h

theorem exoticGet_looks [k.Prompt] (hk : k.Settles s) (hs : Intact s s') (thisObj : JSValue) :
    Looks s s' (exoticGet env k p prop thisObj) := by
  unfold exoticGet
  refine Ends.bind_ok (a := s'.obj p) rfl ?_
  split
  · exact looks_none hs
  split
  · split
    · split
      · exact looks_some (Calls.Prompt.value _)
      split
      · exact nofun
      · exact looks_none hs
    · split
      · exact nofun
      · exact looks_none hs
  · split
    · split
      · exact looks_some (Calls.Prompt.value _)
      split
      · refine (hk.desc hs p prop).bind fun d s' hd => ?_
        split
        · split
          · exact looks_some (callValue_inTime _ _ _)
          · exact nofun
        · exact looks_none (hd rfl)
      · exact looks_none hs
    · exact looks_none hs

/-- The loop of `JS_GetPropertyInternal` after a found property is no initialiser. -/
theorem getWalk_found [k.Prompt] {prop : Atom} {f : Found} (hf : s.findOwn p prop = some f)
    (hk : f.flags.kind ≠ .autoinit) (thisObj : JSValue) (throwRefError : Bool) (fuel : Nat) :
    InTime s (getWalk env k prop thisObj throwRefError (fuel + 1) p) := by
  rw [getWalk]
  refine Ends.bind_ok (findOwnProperty_run p prop s) ?_
  simp only [hf, hk, if_false]
  exact readFound_inTime _ _ _

theorem getWalk_step [k.Prompt] (hk : k.Settles s) (thisObj : JSValue) (throwRefError : Bool) :
    RoundEnds env s q fun fuel p =>
      getWalk env k prop thisObj throwRefError fuel (s.active env p) := by
  intro p fuel s' hp _ hs hrest
  have hpres : s'.Present (s.active env p) := hs.present (State.present_active hp.present)
  beta_reduce
  rw [getWalk]
  refine Ends.bind_ok (findOwnProperty_run _ prop s') ?_
  cases hf : s'.findOwn (s.active env p) prop with
  | some f =>
    simp only
    split
    · refine (autoInitProperty_ends hk hs hpres hf).bind fun _ s'' ⟨f', hf', hk⟩ => ?_
      exact getWalk_found hf' (by rw [hk]; nofun) _ _ _
    · exact readFound_inTime _ _ _
  | none =>
    refine (exoticGet_looks prop hk hs thisObj).bind fun r s'' hr => ?_
    split
    · trivial
    · have hs'' := hr rfl
      refine hs''.ends_proto hp fun o sh hsh => ?_
      rw [hsh]
      split
      · rename_i q hq
        refine Ends.bind_ok (objectActive_run q s'') ?_
        rw [hs''.active]
        exact hrest q hq s'' hs''
      · split
        · exact nofun
        · trivial

theorem foundFlags_inTime (f : Found) : InTime s (foundFlags prop f) := by
  unfold foundFlags
  dsimp only
  split
  · exact (readVarRef_inTime _ _).bind fun _ _ => trivial
  · trivial

theorem exoticGetOwn_looks [k.Prompt] (hk : k.Settles s) (hs : Intact s s') :
    Looks s s' (exoticGetOwn env k p prop .existence) := by
  unfold exoticGetOwn
  refine Ends.bind_ok (a := s'.obj p) rfl ?_
  split
  · exact looks_none hs
  split
  · split
    · split
      · exact nofun
      · exact looks_none hs
    · exact looks_none hs
  · split
    · exact hk.desc hs p prop
    · exact looks_none hs

theorem getOwnPropertyInternal2_looks [k.Prompt] (hk : k.Settles s) (hs : Intact s s') :
    Looks s s' (getOwnPropertyInternal2 env k p prop .existence) := by
  unfold getOwnPropertyInternal2
  refine Ends.bind_ok (objectActive_run p s') ?_
  obtain ⟨n, hn⟩ := Nat.exists_eq_succ_of_ne_zero hk.fuel
  rw [hn, getOwn]
  refine Ends.bind_ok (findOwnProperty_run _ prop s') ?_
  split
  · exact looks_some (foundFlags_inTime _ _)
  · exact exoticGetOwn_looks prop hk hs

theorem hasWalk_step [k.Prompt] (hk : k.Settles s) : RoundEnds env s q (hasWalk env k prop) := by
  intro p fuel s' hp _ hs hrest
  rw [hasWalk]
  refine Ends.bind_ok (a := s'.obj p) rfl ?_
  split
  · exact Calls.Prompt.bool _
  · refine (getOwnPropertyInternal2_looks prop hk hs).bind fun r s'' hr => ?_
    cases r with
    | some d => trivial
    | none =>
      have hs'' := hr rfl
      simp only [Option.isSome_none, Bool.false_eq_true, if_false]
      split
      · trivial
      · refine Ends.bind_ok (objectActive_run p s'') ?_
        rw [hs''.active]
        refine hs''.ends_proto hp fun o sh hsh => ?_
        rw [hsh]
        split
        · rename_i q hq
          exact hrest q hq s'' hs''
        · trivial

theorem callSetter_inTime [k.Prompt] (setter : Option Ptr) (thisObj val : JSValue)
    (flags : Flags) : InTime s (callSetter env k setter thisObj val flags) := by
  unfold callSetter
  split
  · refine InTime.bind ?_ fun _ _ => (Calls.Prompt.value _).bind fun _ _ => trivial
    unfold receiverIdentity
    split
    · refine InTime.bind ?_ fun _ _ => trivial
      unfold objectBaseIdentity
      split
      · refine Ends.bind_ok (a := s) rfl ?_
        split <;> trivial
      · trivial
    · trivial
  · unfold throwTypeErrorOrFalse
    split
    · exact nofun
    · trivial

theorem setTypedOob_inTime [k.Prompt] (same : Bool) (kind : TypedKind) (val : JSValue) :
    InTime s (setTypedOob k same kind val) := by
  unfold setTypedOob
  refine InTime.bind ?_ fun _ _ => trivial
  cases same with
  | true => exact (Calls.Prompt.value _).bind fun _ _ => trivial
  | false => trivial

theorem setByMethod_looks [k.Prompt] (hk : k.Settles s) (hs : Intact s s') (same : Bool)
    (em : Exotic) (prop : Atom) (val thisObj : JSValue) (flags : Flags) :
    Looks s s' (setByMethod env k same p em prop val thisObj flags) := by
  unfold setByMethod
  split
  · exact looks_done (Calls.Prompt.bool _)
  split
  · refine (hk.desc hs p prop).bind fun d s' hd => ?_
    split
    · split
      · exact looks_done (callSetter_inTime _ _ _ _)
      split
      · exact nofun
      split
      · exact looks_done (Calls.Prompt.bool _)
      · exact nofun
    · exact looks_none (hd rfl)
  · exact looks_none hs

theorem exoticSet_looks [k.Prompt] (hk : k.Settles s) (hs : Intact s s') (recv : Option Ptr)
    (prop : Atom) (val thisObj : JSValue) (flags : Flags) :
    Looks s s' (exoticSet env k recv p prop val thisObj flags) := by
  unfold exoticSet
  refine Ends.bind_ok (a := s'.obj p) rfl ?_
  split
  · exact looks_none hs
  split
  · split
    · split
      · split
        · exact looks_done (Calls.Prompt.bool _)
        · exact nofun
      · split
        · exact looks_some (setTypedOob_inTime _ _ _)
        · exact looks_none hs
    · split
      · exact looks_some (setTypedOob_inTime _ _ _)
      · exact looks_none hs
    · exact looks_none hs
  · split
    · exact setByMethod_looks hk hs _ _ _ _ _ _
    · exact looks_none hs

theorem setter_inTime (f : Found) : InTime s f.setter := by
  unfold Found.setter
  split
  · trivial
  · exact nofun

section
variable (recv : Option Ptr) (prop : Atom) (val thisObj : JSValue) (flags : Flags)

/-- The loop of `JS_SetPropertyInternal2` at a property that is no initialiser. -/
theorem setLook_found {f : Found} (hf : s.findOwn p prop = some f)
    (hk : f.flags.kind = .normal) (fuel : Nat) :
    InTime s (setLook env k recv prop val thisObj flags (fuel + 1) p) := by
  rw [setLook]
  refine Ends.bind_ok (findOwnProperty_run p prop s) ?_
  simp only [hf, hk]
  split <;> trivial

/-- The end of a round that has not found the property: the next object of the chain. -/
theorem nextProto_ends (hp : s.Named p) (hs : Intact s s') :
    Ends s' (nextProto env (s.active env p))
      (fun r s'' => s'' = s' ∧ r = (s.proto env p).map (s.active env)) fun _ _ => False := by
  unfold nextProto
  refine hs.ends_proto hp fun o sh hsh => ?_
  rw [hsh]
  cases s.proto env p with
  | none => exact ⟨rfl, rfl⟩
  | some q =>
    refine Ends.bind_ok (objectActive_run q s') ?_
    rw [hs.active]
    exact ⟨rfl, rfl⟩

theorem setLook_step [k.Prompt] (hk : k.Settles s) : RoundEnds env s q fun fuel p =>
    setLook env k recv prop val thisObj flags fuel (s.active env p) := by
  intro p fuel s' hp _ hs hrest
  have hpres : s'.Present (s.active env p) := hs.present (State.present_active hp.present)
  beta_reduce
  rw [setLook]
  refine Ends.bind_ok (findOwnProperty_run _ prop s') ?_
  cases hf : s'.findOwn (s.active env p) prop with
  | some f =>
    simp only
    split
    · exact (setter_inTime f).bind fun _ _ =>
        (callSetter_inTime _ _ _ _).bind fun _ _ => trivial
    · refine (autoInitProperty_ends hk hs hpres hf).bind fun _ s'' ⟨f', hf', hk⟩ => ?_
      exact setLook_found recv prop val thisObj flags hf' hk _
    · split <;> trivial
  | none =>
    refine (exoticSet_looks hk hs recv prop val thisObj flags).bind fun r s'' hr => ?_
    split
    · trivial
    · have hs'' := hr rfl
      refine ((nextProto_ends hp hs'').mono (fun _ _ => id) nofun).bind ?_
      rintro r _ ⟨rfl, rfl⟩
      cases hq : s.proto env p with
      | some q => exact hrest q hq _ hs''
      | none => trivial

/-- The loop of `JS_SetPropertyInternal2` when the object is the receiver and has no such property
of its own. -/
theorem setOwn_inTime [k.Prompt] (hk : k.Settles s) (hp : s.Named p)
    (hnone : s.findOwn (s.active env p) prop = none)
    {fuel : Nat} (hrest : ∀ q, s.proto env p = some q → ∀ s', Intact s s' →
      InTime s' (setLook env k (some (s.active env p)) prop val thisObj flags fuel
        (s.active env q))) :
    InTime s (setOwn env k prop val thisObj flags (fuel + 1) (s.active env p)) := by
  rw [setOwn]
  refine Ends.bind_ok (findOwnProperty_run _ prop s) ?_
  simp only [hnone]
  refine (exoticSet_looks hk (.refl s) _ prop val thisObj flags).bind fun r s' hr => ?_
  split
  · trivial
  · have hs' := hr rfl
    refine ((nextProto_ends hp hs').mono (fun _ _ => id) nofun).bind ?_
    rintro r _ ⟨rfl, rfl⟩
    cases hq : s.proto env p with
    | some q => exact hrest q hq _ hs'
    | none => trivial

end

theorem instanceOfWalk_step {pollInterrupts : M Unit} {proto : Ptr}
    (hx : ∀ p, OnChain (s.next env) q p → (s.obj p).classId ≠ .proxy) :
    RoundEnds env s q (instanceOfWalk env k pollInterrupts proto) := by
  intro p fuel s' hp hqp hs hrest
  rw [instanceOfWalk]
  refine Ends.bind_ok (objectActive_run p s') ?_
  rw [hs.active]
  refine hs.ends_proto hp fun o sh hsh => ?_
  rw [hsh]
  split
  · refine Ends.bind_ok (a := s'.obj p) rfl ?_
    rw [hs.obj p hp.present, if_neg (hx p hqp)]
    trivial
  · rename_i q hq
    split
    · trivial
    · exact hrest q hq s' hs

theorem onChain_step {target : Ptr} : RoundEnds env s q (onChain env target) := by
  intro p fuel s' hp _ hs hrest
  rw [onChain]
  split
  · trivial
  · refine Ends.bind_ok (objectActive_run p s') ?_
    rw [hs.active]
    refine hs.ends_proto hp fun o sh hsh => ?_
    rw [hsh]
    split
    · rename_i q hq
      exact hrest q hq s' hs
    · trivial

/-! ## Calls of a context -/

/-- The exotic lookups and the initialisers of a context compute their result, or fail. Other code
of the context, such as getters, may call what it likes. -/
class Env.Computes (env : Env) : Prop where
  getOwnProperty : ∀ i p prop, ∃ r, env.code i (.getOwnProperty p prop) = .ret r
  autoinit : ∀ i id p prop, ∃ r, env.code i (.autoinit id p prop) = .ret r

/-- A callback that computes its result leaves the objects as they are. -/
theorem exec_ret {c : Callback} (hc : ∀ i, ∃ r, env.code i c = .ret r) (fuel : Nat) :
    Ends s (exec env fuel (.call c)) (fun _ s' => Intact s s') fun _ _ => True := by
  cases fuel with
  | zero => trivial
  | succ fuel =>
    rw [exec]
    refine Ends.bind_ok (a := s) rfl ?_
    refine Ends.bind_ok (a := ()) rfl ?_
    obtain ⟨r, hr⟩ := hc s.calls
    rw [hr]
    cases r with
    | ok r => exact ⟨le_rfl, rfl, fun q _ => by cases q <;> rfl, fun q _ => by
        cases (s.obj q).shape <;> rfl, fun q _ => by cases (s.obj q).shape <;> rfl⟩
    | error e => trivial

/-- The calls of such a context settle. -/
theorem exec_settles [env.Computes] {fuel : Nat} (hf : fuel ≠ 0) :
    Calls.Settles ⟨fuel, exec env fuel⟩ s where
  fuel := hf
  getOwnProperty p prop _ hs := (exec_ret (fun i => Env.Computes.getOwnProperty i p prop) fuel).mono
    (fun _ _ h _ => hs.trans h) fun _ _ => id
  autoinit id p prop _ _ _ _ := exec_ret (fun i => Env.Computes.autoinit i id p prop) fuel

/-! ## After any calls that set prototypes -/

/-- Prototype chains are acyclic in every state that calls of `JS_SetPrototypeInternal` lead to, and
the loops that follow them end: with enough fuel, a loop that does not end is in a call that does
not. -/
theorem prototype_chains_end [env.Arena] {s0 : State} (h0 : Chains env s0)
    (hs : Relation.ReflTransGen (SetsPrototype env) s0 s) :
    (∀ p, ¬ Relation.TransGen (PrototypeOf env s) p p) ∧
      ∀ k : Calls, k.Settles s → ∀ p, s.Named p → ∃ n, ∀ fuel ≥ n,
        (∀ prop thisObj throwRefError,
          InTime s (getWalk env k.awaited prop thisObj throwRefError fuel (s.active env p))) ∧
        (∀ prop, InTime s (hasWalk env k.awaited prop fuel p)) ∧
        (∀ recv prop val thisObj flags,
          InTime s (setLook env k.awaited recv prop val thisObj flags fuel (s.active env p))) ∧
        (∀ prop val thisObj flags, s.findOwn (s.active env p) prop = none →
          InTime s (setOwn env k.awaited prop val thisObj flags fuel (s.active env p))) ∧
        ((∀ q, OnChain (s.next env) p q → (s.obj q).classId ≠ .proxy) →
          ∀ pollInterrupts proto,
            InTime s (instanceOfWalk env k.awaited pollInterrupts proto fuel p)) ∧
        ∀ target, InTime s (onChain env target fuel p) := by
  have h := h0.reach hs
  refine ⟨h.acyclic, fun k hk p hp => ?_⟩
  have hk := hk.awaited
  obtain ⟨n, hn⟩ := h.walk hp
  obtain ⟨m, hm⟩ := h.walk_next hp
  refine ⟨n + m + 1, fun fuel hf => ⟨fun prop thisObj throwRefError => ?_, fun prop => ?_,
    fun recv prop val thisObj flags => ?_, fun prop val thisObj flags hnone => ?_,
    fun hx pollInterrupts proto => ?_, fun target => ?_⟩⟩
  · exact hn _ (getWalk_step prop hk thisObj throwRefError) fuel (by omega) s (.refl s)
  · exact hn _ (hasWalk_step prop hk) fuel (by omega) s (.refl s)
  · exact hn _ (setLook_step recv prop val thisObj flags hk) fuel (by omega) s (.refl s)
  · obtain ⟨fuel, rfl⟩ : ∃ j, fuel = j + 1 := ⟨fuel - 1, by omega⟩
    exact setOwn_inTime prop val thisObj flags hk hp hnone fun q hq s' hs' =>
      hm q hq _ (setLook_step _ prop val thisObj flags hk) fuel (by omega) s' hs'
  · exact hn _ (instanceOfWalk_step hx) fuel (by omega) s (.refl s)
  · exact hn _ onChain_step fuel (by omega) s (.refl s)

end

/-! ## An example -/

/-- A request over a snapshot of objects without prototypes; it has made two objects. -/
def plainState : State where
  base := {
    objs := fun _ => { classId := .object, shape := .base 0 }
    shapes := fun _ => ⟨none, [], 2, 0, false, 1⟩
    cells := fun _ => .undefined
    bufs := fun _ => ⟨[], false⟩
    structs := fun _ => .values []
    shapeHash := []
    stdArrayPrototype := true
    freed := 0 }
  req := {
    objs := fun _ => { classId := .object, shape := .base 0 }
    shapes := fun _ => ⟨none, [], 2, 0, false, 1⟩
    cells := fun _ => .undefined
    bufs := fun _ => ⟨[], false⟩
    structs := fun _ => .values [] }
  shadow := {
    objs := fun _ => { classId := .object, shape := .base 0 }
    shapes := fun _ => ⟨none, [], 2, 0, false, 1⟩
    cells := fun _ => .undefined
    bufs := fun _ => ⟨[], false⟩
    structs := fun _ => .values [] }
  nextObj := 2
  nextShape := 0
  nextCell := 0
  nextStruct := 0
  shadowTab := []
  shadowTabSize := 0
  varrefTab := []
  varrefTabSize := 0
  shapeOverlay := none
  stdArrayPrototypeDirty := false
  allocs := 0
  calls := 0

/-- A context with memory to spare. Its functions look at their receiver before they return. -/
def plainEnv : Env where
  isArena := true
  alloc := fun _ => true
  strict := true
  classProto := fun _ => none
  exotic := fun _ => none
  callable := fun _ => false
  numericIndex := fun _ => none
  elementValue := fun _ _ => .undefined
  code := fun _ c => match c with
    | .function _ thisObj _ => .op (.hasProperty thisObj .length) fun _ => .ret (.ok .unit)
    | _ => .ret (.ok .unit)

/-- Eight levels of calls. -/
def plainCalls : Calls := ⟨8, exec plainEnv 8⟩

theorem plainState_chains : Chains plainEnv plainState := by
  have hshape : ∀ p, (plainState.obj p).shape = .base 0 := by rintro (_ | _ | _) <;> rfl
  have hproto : ∀ p, plainState.shape p = ⟨none, [], 2, 0, false, 1⟩ := by
    rintro (_ | _ | _) <;> rfl
  refine ⟨⟨fun n => rfl, fun p _ => .inl (by rw [hshape]; rfl), nofun, nofun, nofun, .nil, nofun⟩,
    fun p q _ hq => ?_, ⟨fun p => ⟨p, fun q hq => ?_⟩⟩⟩
  · simp [State.view, JSObject.view, hproto] at hq
  · simp [ParentOf, State.next, State.proto, hproto] at hq

instance : plainEnv.Arena := ⟨rfl⟩

instance : plainEnv.Computes := ⟨fun _ _ _ => ⟨_, rfl⟩, fun _ _ _ _ => ⟨_, rfl⟩⟩

/-- The state after the snapshot object `5` got the request object `1` as its prototype. -/
def plainState1 : State :=
  endState ((setPrototypeInternal plainEnv plainCalls (.object (.base 5)) (.object (.req 1))
    false).run plainState)

theorem plainState1_run :
    (setPrototypeInternal plainEnv plainCalls (.object (.base 5)) (.object (.req 1)) false).run
      plainState = .ok true plainState1 := rfl

/-- The way back is refused. -/
theorem plainState1_refuses :
    (setPrototypeInternal plainEnv plainCalls (.object (.req 1)) (.object (.base 5)) false).run
      plainState1 = .ok false plainState1 := rfl

/-- The snapshot object `5` gets the request object `1` as its prototype, and the way back is
refused. -/
theorem prototype_chains_end_plain :
    Relation.ReflTransGen (SetsPrototype plainEnv) plainState plainState1 ∧
      plainState1.proto plainEnv (.base 5) = some (.req 1) ∧
      (∀ p, ¬ Relation.TransGen (PrototypeOf plainEnv plainState1) p p) ∧
      ∃ n, ∀ fuel ≥ n,
        InTime plainState1 (hasWalk plainEnv plainCalls.awaited .length fuel (.base 5)) := by
  have hreach : Relation.ReflTransGen (SetsPrototype plainEnv) plainState plainState1 := by
    refine (Relation.ReflTransGen.single (b := plainState1) ?_).tail ?_
    · refine @SetsPrototype.intro _ _ _ (.base 5) (.object (.req 1)) _ _ trivial (by decide)
        ?_ (.inl ⟨true, plainState1_run⟩)
      rintro _ ⟨⟩
      exact Nat.lt_succ_self 1
    · refine @SetsPrototype.intro _ _ _ (.req 1) (.object (.base 5)) _ _
        (Nat.lt_succ_self 1) (by decide) ?_ (.inl ⟨false, plainState1_refuses⟩)
      rintro _ ⟨⟩
      trivial
  have h := prototype_chains_end plainState_chains hreach
  obtain ⟨n, hn⟩ := h.2 plainCalls (exec_settles (by decide)) (.base 5) trivial
  exact ⟨hreach, rfl, h.1, n, fun fuel hf => (hn fuel hf).2.1 .length⟩

end ArenaJs.Heap
