import ArenaJs.Engine.ForWrite
import ArenaJs.Lib.Parents

/-!
# Prototype chains end

A script names an object by its snapshot pointer or, when the request made it, by its request
pointer; the prototype it sees is that of the object to read (`State.proto`). `Chains` says that
prototypes are objects a script can name and that every chain of them ends. A call of
`JS_SetPrototypeInternal` keeps it (`setPrototypeInternal_chains`): what the call changes is one
prototype, and the cycle check has walked the chain of the new one, in the shadows' terms, without
meeting the object (`onChain_ends`).
-/

namespace ArenaJs.Heap

/-! ## Objects by the names a script has for them -/

/-- A script can name the object: shadows are known to the engine only. -/
def State.Named (s : State) : Ptr → Prop
  | .base _ => True
  | .req n => n < s.nextObj
  | .shadow _ => False

instance (s : State) (p : Ptr) : Decidable (s.Named p) :=
  match p with
  | .base _ => .isTrue trivial
  | .req n => inferInstanceAs (Decidable (n < s.nextObj))
  | .shadow _ => .isFalse id

/-- `js_object_active(p)->shape->proto`. -/
def State.proto (env : Env) (s : State) (p : Ptr) : Option Ptr :=
  (s.shape (s.obj (s.active env p)).shape).proto

/-- The prototypes of the objects a script can name. -/
def State.next (env : Env) (s : State) (p : Ptr) : Option Ptr :=
  if s.Named p then s.proto env p else none

/-- The state of a request as far as prototypes go. -/
structure Chains (env : Env) (s : State) : Prop where
  owned : Owned s
  named : ∀ p q, s.Present p → (s.view p).proto = some q → s.Named q
  grounded : Grounded (s.next env)

section
variable {env : Env} {s s' : State} {p q : Ptr}
variable {proto : Option Ptr}

theorem State.Named.present (h : s.Named p) : s.Present p := by
  cases p with
  | base | req => exact h
  | shadow => exact h.elim

theorem State.Named.congr (hn : s'.nextObj = s.nextObj) (h : s.Named p) : s'.Named p := by
  cases p with
  | base => trivial
  | req n => exact h.trans_eq hn.symm
  | shadow => exact h

theorem State.named_congr (hn : s'.nextObj = s.nextObj) : s'.Named p ↔ s.Named p :=
  ⟨.congr hn.symm, .congr hn⟩

theorem State.present_active (h : s.Present p) : s.Present (s.active env p) := by
  cases p with
  | base n =>
    simp only [State.active]
    split
    · rename_i hc
      simp only [Bool.and_eq_true, List.contains_eq_mem, decide_eq_true_eq] at hc
      exact hc.2
    · trivial
  | req | shadow => exact h

/-- Objects with different names are different objects. -/
theorem State.active_inj (hp : s.Named p) (hq : s.Named q)
    (h : s.active env p = s.active env q) : p = q := by
  cases p <;> cases q <;> simp only [State.active] at h <;> grind [State.Named]

theorem State.next_of_named (h : s.Named p) : s.next env p = s.proto env p := if_pos h

theorem State.named_of_next (h : s.next env p = some q) : s.Named p := by
  by_contra hp
  rw [State.next, if_neg hp] at h
  cases h

/-- The next object of a chain can be named. -/
theorem Chains.named_next (h : Chains env s) (hn : s.next env p = some q) : s.Named q := by
  have hp := State.named_of_next hn
  rw [State.next_of_named hp] at hn
  exact h.named _ q (State.present_active hp.present) hn

/-! ## The cycle check -/

/-- The cycle check walks the chain of the new prototype to its end and changes nothing. -/
theorem onChain_ends (h : Chains env s) {target : Ptr} {fuel : Nat} (hp : s.Named p) :
    Ends s (onChain env target fuel p)
      (fun b s' => s' = s ∧ (b = false → ¬ OnChain (s.next env) p target))
      (fun e s' => s' = s ∧ e = .timeout) := by
  induction fuel generalizing p with
  | zero => exact ⟨rfl, rfl⟩
  | succ fuel ih =>
    rw [onChain]
    split
    · exact ⟨rfl, nofun⟩
    · rename_i hne
      refine Ends.bind_ok (objectActive_run p s) ?_
      refine Ends.bind_ok (a := s.obj (s.active env p)) rfl ?_
      refine Ends.bind_ok (a := s.shape (s.obj (s.active env p)).shape) rfl ?_
      have hnext : s.next env p = (s.shape (s.obj (s.active env p)).shape).proto :=
        State.next_of_named hp
      -- the target is further up the chain, if it is on it
      have hup : ∀ r, OnChain (s.next env) p r → r ≠ p →
          ∃ q, s.next env p = some q ∧ OnChain (s.next env) q r := by
        intro r hr hrp
        rcases Relation.ReflTransGen.cases_head hr with rfl | ⟨q, hq, hqr⟩
        · exact absurd rfl hrp
        · exact ⟨q, hq, hqr⟩
      cases hproto : (s.shape (s.obj (s.active env p)).shape).proto with
      | none =>
        refine ⟨rfl, fun _ hon => ?_⟩
        obtain ⟨q, hq, _⟩ := hup target hon (Ne.symm hne)
        rw [hnext, hproto] at hq
        cases hq
      | some q =>
        rw [hproto] at hnext
        refine (ih (h.named_next hnext)).mono (fun b s' hb => ⟨hb.1, fun hf hon => ?_⟩)
          fun _ _ => id
        obtain ⟨q', hq', hon'⟩ := hup target hon (Ne.symm hne)
        rw [hnext] at hq'
        cases hq'
        exact hb.2 hf hon'

/-! ## What one call changes -/

/-- Every object has the prototype it had. -/
structure SameProto (s s' : State) : Prop where
  nextObj : s'.nextObj = s.nextObj
  tab : s'.shadowTab = s.shadowTab
  proto : ∀ q, s.Present q → (s'.view q).proto = (s.view q).proto

theorem Still.sameProto (h : Still s s') : SameProto s s' :=
  ⟨h.nextObj, h.tab, fun q hq => by rw [h.view q hq]⟩

theorem SameProto.present (h : SameProto s s') : s'.Present q ↔ s.Present q :=
  State.present_congr h.nextObj h.tab

theorem SameProto.active (h : SameProto s s') (q : Ptr) : s'.active env q = s.active env q := by
  cases q <;> simp only [State.active, h.tab]

theorem SameProto.next (h : SameProto s s') (p : Ptr) : s'.next env p = s.next env p := by
  by_cases hp : s.Named p
  · rw [State.next_of_named hp, State.next_of_named (hp.congr h.nextObj), State.proto, h.active]
    exact h.proto _ (State.present_active hp.present)
  · rw [State.next, State.next, if_neg hp, if_neg (mt (State.named_congr h.nextObj).1 hp)]

theorem Chains.sameProto (h : Chains env s) (hs : SameProto s s') (ho : Owned s') :
    Chains env s' := by
  refine ⟨ho, fun p q hp hq => ?_, h.grounded.congr hs.next⟩
  have hp' := hs.present.1 hp
  rw [hs.proto p hp'] at hq
  exact (h.named p q hp' hq).congr hs.nextObj

/-- A new shadow has the prototype of its object. -/
theorem Chains.resolves [env.Arena] (h : Chains env s) (hr : Resolves s p q s') :
    Chains env s' := by
  cases hr with
  | same | known => exact h
  | @made m _ hm hs ho =>
    obtain ⟨u, hu⟩ := hs.copy
    have hcopy : (s'.view (.shadow m)).proto = (s.view (.base m)).proto := by rw [hu]
    have hold : ∀ p, s'.Present p → p ≠ .shadow m → s.Present p := by
      intro p hp hne
      cases p with
      | base => trivial
      | req n => exact hp.trans_eq hs.nextObj
      | shadow n =>
        rw [State.Present, hs.tab] at hp
        exact (List.mem_cons.1 hp).resolve_left fun e => hne (by rw [e])
    refine ⟨ho, fun p q hp hq => ?_, h.grounded.congr fun p => ?_⟩
    · by_cases hpm : p = .shadow m
      · rw [hpm, hcopy] at hq
        exact (h.named (.base m) q trivial hq).congr hs.nextObj
      · rw [hs.view p (hold p hp hpm)] at hq
        exact (h.named p q (hold p hp hpm) hq).congr hs.nextObj
    · by_cases hp : s.Named p
      · rw [State.next_of_named hp, State.next_of_named (hp.congr hs.nextObj)]
        by_cases hpm : p = .base m
        · subst hpm
          have h1 : s'.active env (.base m) = .shadow m := by
            simp [State.active, Env.Arena.isArena, hs.tab]
          have h0 : s.active env (.base m) = .base m := by
            simp [State.active, Env.Arena.isArena, hm]
          rw [State.proto, State.proto, h1, h0]
          exact hcopy
        · have hact : s'.active env p = s.active env p := by
            cases p with
            | base n =>
              have hne : n ≠ m := fun e => hpm (by rw [e])
              simp [State.active, hs.tab, hne]
            | req | shadow => rfl
          rw [State.proto, hact]
          exact congrArg View.proto (hs.view _ (State.present_active hp.present))
      · rw [State.next, State.next, if_neg hp, if_neg (mt (State.named_congr hs.nextObj).1 hp)]

/-- Only the prototype of `p` is another one. -/
structure Reproto (p : Ptr) (proto : Option Ptr) (s s' : State) : Prop where
  nextObj : s'.nextObj = s.nextObj
  tab : s'.shadowTab = s.shadowTab
  same : (s'.view p).proto = proto
  other : ∀ q, s.Present q → q ≠ p → (s'.view q).proto = (s.view q).proto

theorem Reproto.present (h : Reproto p proto s s') :
    s'.Present q ↔ s.Present q :=
  State.present_congr h.nextObj h.tab

/-- A new prototype whose chain does not meet the object. -/
theorem Chains.reproto (h : Chains env s) (ho : Owned s') (hp : s.Named p)
    (hr : Reproto (s.active env p) proto s s') (hproto : ∀ q, proto = some q → s.Named q)
    (hcycle : ∀ q, proto = some q → ¬ OnChain (s.next env) q p) : Chains env s' := by
  have hact : ∀ q, s'.active env q = s.active env q := by
    intro q
    cases q <;> simp [State.active, hr.tab]
  have hsame : s'.next env p = proto := by
    rw [State.next_of_named (hp.congr hr.nextObj), State.proto, hact]
    exact hr.same
  refine ⟨ho, fun q r hq hqr => ?_, h.grounded.update (a := p) (fun q hqp => ?_) fun q hq => ?_⟩
  · by_cases hqp : q = s.active env p
    · rw [hqp, hr.same] at hqr
      exact (hproto r hqr).congr hr.nextObj
    · rw [hr.other q (hr.present.1 hq) hqp] at hqr
      exact (h.named q r (hr.present.1 hq) hqr).congr hr.nextObj
  · by_cases hq : s.Named q
    · rw [State.next_of_named hq, State.next_of_named (hq.congr hr.nextObj), State.proto, hact]
      exact hr.other _ (State.present_active hq.present) fun e => hqp (State.active_inj hq hp e)
    · rw [State.next, State.next, if_neg hq, if_neg (mt (State.named_congr hr.nextObj).1 hq)]
  · exact hcycle q (hsame.symm.trans hq)

theorem Reproto.trans {s'' : State} (h : Reproto p proto s s')
    (hp : s.Present p) (h' : SameProto s' s'') : Reproto p proto s s'' where
  nextObj := h'.nextObj.trans h.nextObj
  tab := h'.tab.trans h.tab
  same := (h'.proto p (h.present.2 hp)).trans h.same
  other q hq hqp := (h'.proto q (h.present.2 hq)).trans (h.other q hq hqp)

theorem SameProto.trans_reproto {s'' : State} (h : SameProto s s')
    (h' : Reproto p proto s' s'') : Reproto p proto s s'' where
  nextObj := h'.nextObj.trans h.nextObj
  tab := h'.tab.trans h.tab
  same := h'.same
  other q hq hqp := (h'.other q (h.present.2 hq) hqp).trans (h.proto q hq)

/-- A write to the prototype of a shape that only `p` has. -/
theorem Owned.reproto (h : Owned s) {sh : Ptr} (hm : Mine s p sh) (hp : s.Present p)
    (proto : Option Ptr) :
    Owned (s.update (Arena.mapShape fun o => { o with proto := proto }) sh) ∧
      Reproto p proto s (s.update (Arena.mapShape fun o => { o with proto := proto }) sh) := by
  have hview : ∀ q, ((s.update (Arena.mapShape fun o => { o with proto := proto }) sh).view q).proto
      = if (s.obj q).shape = sh then proto else (s.view q).proto := by
    intro q
    simp only [State.view, JSObject.view, obj_mapShape, shape_mapShape]
    split <;> rfl
  obtain ⟨m, hlt, rfl⟩ := hm.req
  refine ⟨h.mapShape rfl rfl, rfl, rfl, ?_, fun q hq hqp => ?_⟩
  · rw [hview, if_pos hm.shape]
  · rw [hview, if_neg fun e => hqp (h.sole hm hp hq e)]

/-- Marking an object as a prototype changes nobody's prototype. -/
theorem markPrototype_ends [env.Arena] (h : Owned s) (proto : Option Ptr) :
    Ends s (markPrototype env proto) (fun _ s' => Owned s' ∧ SameProto s s') fun _ _ => False := by
  cases proto with
  | none => exact ⟨h, rfl, rfl, fun _ _ => rfl⟩
  | some q =>
    refine Ends.bind_ok (a := s.obj q) rfl ?_
    simp only [when, Env.ptrIsBase_eq]
    split
    · rename_i hc
      simp only [Bool.and_eq_true, Bool.not_eq_true'] at hc
      refine Ends.modify ⟨h.mapObj hc.2 rfl, nextObj_update _, shadowTab_update _, fun r _ => ?_⟩
      simp only [State.view, JSObject.view, obj_mapObj, shape_mapObj]
      split
      · rename_i e
        rw [e]
      · rfl
    · exact ⟨h, rfl, rfl, fun _ _ => rfl⟩

theorem markDirty_ends [env.Arena] (h : Owned s) (c : Bool) :
    Ends s (when c (stdArrayPrototypeMarkDirty env)) (fun _ s' => Owned s' ∧ SameProto s s')
      fun _ _ => False := by
  simp only [when, stdArrayPrototypeMarkDirty, Env.Arena.isArena, if_true]
  split
  · refine ⟨⟨h.baseShape, h.shape, h.refs, h.single, h.overlay, h.nodup, h.baseHash⟩, rfl, rfl, ?_⟩
    intro q _
    cases q <;> rfl
  · exact ⟨h, rfl, rfl, fun _ _ => rfl⟩

/-- How a call ends that keeps the chains. -/
def EndsIn (env : Env) : Stop → State → Prop
  | .throw _, s' => Chains env s'
  | _, _ => True

theorem Chains.endsIn (h : Chains env s) {e : Stop} (he : Fails s e s') : EndsIn env e s' := by
  cases e with
  | throw x => exact h.sameProto he.2.sameProto he.1
  | crash | timeout | excluded => trivial

theorem refusePrototype_ends (h : Chains env s) (throwFlag : Bool) (fmt : String) :
    Ends s (refusePrototype throwFlag fmt) (fun _ s' => Chains env s') (EndsIn env) := by
  cases throwFlag <;> exact h

/-- `JS_SetPrototypeInternal` on the object `s.active env p`, which the script knows as `p`. -/
theorem setPrototypeOn_ends [env.Arena] {k : Calls} (h : Chains env s) (hp : s.Named p)
    (hb : (s.active env p).isBase = false)
    (hproto : ∀ q, proto = some q → s.Named q) (throwFlag : Bool) :
    Ends s (setPrototypeOn env k (s.active env p) p proto throwFlag) (fun _ s' => Chains env s')
      (EndsIn env) := by
  have hpres : s.Present (s.active env p) := State.present_active hp.present
  unfold setPrototypeOn
  refine Ends.bind_ok (a := s.obj (s.active env p)) rfl ?_
  refine Ends.bind_ok (a := s.shape (s.obj (s.active env p)).shape) rfl ?_
  split
  · exact h
  split
  · exact refusePrototype_ends h _ _
  split
  · exact refusePrototype_ends h _ _
  -- the cycle check
  have hcheck : Ends s (makesCycle env k p proto)
      (fun b s' => s' = s ∧ (b = false → ∀ q, proto = some q → ¬ OnChain (s.next env) q p))
      (EndsIn env) := by
    cases proto with
    | none => exact ⟨rfl, nofun⟩
    | some q =>
      refine (onChain_ends h (hproto q rfl)).mono (fun b s' hb => ⟨hb.1, ?_⟩) ?_
      · rintro hf _ ⟨⟩
        exact hb.2 hf
      · rintro _ _ ⟨rfl, rfl⟩
        trivial
  refine hcheck.bind fun b s1 hb => ?_
  obtain ⟨rfl, hfree⟩ := hb
  cases b with
  | true => exact refusePrototype_ends h _ _
  | false =>
    have hupd : Ends s1 (shapePrepareUpdate env (s1.active env p))
        (fun sh s' => Owned s' ∧ Still s1 s' ∧ Mine s' (s1.active env p) sh) (EndsIn env) :=
      (shapePrepareUpdate_ends h.owned hpres hb).mono (fun _ _ => id) fun _ _ => h.endsIn
    refine hupd.bind fun sh s2 ⟨ho2, hs2, hm2⟩ => ?_
    have hpres2 := hs2.present.2 hpres
    obtain ⟨ho3, hr3⟩ := ho2.reproto hm2 hpres2 proto
    refine Ends.bind_ok (a := ()) rfl ?_
    refine ((markPrototype_ends ho3 proto).mono (fun _ _ => id) nofun).bind ?_
    intro _ s4 ⟨ho4, hs4⟩
    refine ((markDirty_ends ho4 _).mono (fun _ _ => id) nofun).bind fun _ s5 ⟨ho5, hs5⟩ => ?_
    have hr := hs2.sameProto.trans_reproto ((hr3.trans hpres2 hs4).trans hpres2 hs5)
    exact h.reproto ho5 hp hr hproto (hfree rfl)

theorem objectBaseIdentity_run (hp : s.Named p) :
    (objectBaseIdentity env p).run s = .ok p s := by
  cases p with
  | base | req => rfl
  | shadow => exact hp.elim

/-- What a script names resolves to the object to read from then on. -/
theorem Resolves.active_eq [env.Arena] (hr : Resolves s p q s') (hp : s.Named p) :
    s'.active env p = q ∧ q.isBase = false ∧ s'.Named p := by
  cases hr with
  | same hb =>
    cases p with
    | base => cases hb
    | req => exact ⟨rfl, rfl, hp⟩
    | shadow => exact hp.elim
  | known hm => exact ⟨by simp [State.active, Env.Arena.isArena, hm], rfl, trivial⟩
  | made hm hs => exact ⟨by simp [State.active, Env.Arena.isArena, hs.tab], rfl, trivial⟩

theorem Resolves.nextObj (hr : Resolves s p q s') : s'.nextObj = s.nextObj := by
  cases hr with
  | same | known => rfl
  | made _ hs => exact hs.nextObj

theorem Resolves.classId [env.Arena] (hr : Resolves s p q s') (hp : s.Named p) :
    (s'.obj q).classId = (s.obj (s.active env p)).classId := by
  cases hr with
  | same hb =>
    cases p with
    | base => cases hb
    | req => rfl
    | shadow => exact hp.elim
  | known hm => simp [State.active, Env.Arena.isArena, hm]
  | @made m _ hm hs _ =>
    obtain ⟨u, hu⟩ := hs.copy
    have hact : s.active env (.base m) = .base m := by simp [State.active, Env.Arena.isArena, hm]
    rw [hact]
    exact congrArg View.classId hu

/-- `JS_SetPrototypeInternal` keeps the chains, whether it succeeds, refuses or throws. -/
theorem setPrototypeInternal_chains [env.Arena] {k : Calls} (h : Chains env s) (hp : s.Named p)
    (hx : (s.obj (s.active env p)).classId ≠ .proxy) {protoVal : JSValue}
    (hq : ∀ q, protoVal = .object q → s.Named q) (throwFlag : Bool) :
    Ends s (setPrototypeInternal env k (.object p) protoVal throwFlag)
      (fun _ s' => Chains env s') (EndsIn env) := by
  unfold setPrototypeInternal
  refine Ends.bind_ok (objectBaseIdentity_run hp) ?_
  have hres : Ends s (objectForWrite env p) (fun q s' => Resolves s p q s') (EndsIn env) :=
    (objectForWrite_ends h.owned p).mono (fun _ _ => id) fun _ _ => h.endsIn
  refine hres.bind fun p1 s1 hr => ?_
  have h1 := h.resolves hr
  obtain ⟨hact, hb, hp1⟩ : s1.active env p = p1 ∧ p1.isBase = false ∧ s1.Named p :=
    hr.active_eq hp
  have hx1 : (s1.obj p1).classId ≠ .proxy := (hr.classId hp).trans_ne hx
  have hval : Ends s1 (protoOf protoVal)
      (fun proto s' => s' = s1 ∧ ∀ q, proto = some q → s1.Named q) (EndsIn env) := by
    cases protoVal with
    | object q => exact ⟨rfl, by rintro _ ⟨⟩; exact (hq q rfl).congr hr.nextObj⟩
    | null => exact ⟨rfl, nofun⟩
    | _ => exact h1
  refine hval.bind fun proto s2 ⟨e, hproto⟩ => ?_
  subst e hact
  refine Ends.bind_ok (a := s2.obj (s2.active env p)) rfl ?_
  rw [if_neg hx1]
  exact setPrototypeOn_ends h1 hp1 hb hproto throwFlag

/-! ## Sequences of calls -/

/-- One call of `JS_SetPrototypeInternal` on objects a script can name, ended by a result or an
exception. -/
inductive SetsPrototype (env : Env) (s : State) : State → Prop
  | intro {k : Calls} {p : Ptr} {protoVal : JSValue} {throwFlag : Bool} {s' : State}
    (hp : s.Named p) (hx : (s.obj (s.active env p)).classId ≠ .proxy)
    (hq : ∀ q, protoVal = .object q → s.Named q)
    (hrun : (∃ b, (setPrototypeInternal env k (.object p) protoVal throwFlag).run s = .ok b s') ∨
      ∃ e, (setPrototypeInternal env k (.object p) protoVal throwFlag).run s =
        .error (.throw e) s') : SetsPrototype env s s'

theorem Chains.setsPrototype [env.Arena] (h : Chains env s) (hs : SetsPrototype env s s') :
    Chains env s' := by
  obtain ⟨hp, hx, hq, ⟨b, hb⟩ | ⟨e, he⟩⟩ := hs
  · exact (setPrototypeInternal_chains h hp hx hq _).ok hb
  · exact (setPrototypeInternal_chains h hp hx hq _).error he

/-- The chains end after any number of calls. -/
theorem Chains.reach [env.Arena] (h : Chains env s)
    (hs : Relation.ReflTransGen (SetsPrototype env) s s') : Chains env s' := by
  induction hs with
  | refl => exact h
  | tail _ hstep ih => exact ih.setsPrototype hstep

/-- The object `q` is the prototype of `p`, a shadow or not. -/
def PrototypeOf (env : Env) (s : State) (p q : Ptr) : Prop := s.Present p ∧ s.proto env p = some q

/-- No object is on the chain of its own prototype. -/
theorem Chains.acyclic (h : Chains env s) (p : Ptr) :
    ¬ Relation.TransGen (PrototypeOf env s) p p := by
  have hnamed : ∀ {p q}, PrototypeOf env s p q → s.Named q := fun hpq =>
    h.named _ _ (State.present_active hpq.1) hpq.2
  have hpath : ∀ {p q}, s.Named p → Relation.TransGen (PrototypeOf env s) p q →
      Relation.TransGen (ParentOf (s.next env)) p q ∧ s.Named q := by
    intro p q hp hpq
    induction hpq with
    | single hl => exact ⟨.single ((State.next_of_named hp).trans hl.2), hnamed hl⟩
    | tail _ hl ih => exact ⟨ih.1.tail ((State.next_of_named ih.2).trans hl.2), hnamed hl⟩
  intro hcycle
  obtain ⟨q, _, hq⟩ := Relation.TransGen.tail'_iff.1 hcycle
  exact h.grounded.not_above p (hpath (hnamed hq) hcycle).1

end

end ArenaJs.Heap
