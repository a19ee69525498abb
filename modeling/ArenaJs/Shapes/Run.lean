import ArenaJs.Shapes.Keeps

/-!
# Runs of the shape operations

`Op` are the calls that make, change and free objects and their shapes, and `exec` performs one. A
runtime is set up by such calls before the freeze (`Boot`), and then serves requests, in any number
and with any calls and allocation failures (`Serve`). `Serve.consistent` is what holds of the shape
hash in every state reached: lookups end and find the shape asked for, the chains hold each live
hashed shape at most once, and the snapshot's shapes and chains are as they were at the freeze. What
may fail is `js_shape_hash_unlink`: a request that could not allocate its overlay has hashed shapes
that are on no chain, and it looks for them in the snapshot's table, past the end of a chain.
-/

namespace ArenaJs.Shapes

open HashIndex renaming Mem → Chained

variable {V : Type}

/-- The calls. -/
inductive Op (V : Type) where
  | newObject (proto : Nat)
  | newObjectAlloc (proto nAllocProps : Nat)
  | newShape (proto : Nat) (props : List (Nat × Flags × Allocs))
  | newObjectOfContext (k : Nat) (props : List V) (values : Option (List V)) (mapped : Bool)
  | cloneForWrite (p : Nat)
  | addProperty (p atom : Nat) (flags : Flags) (v : V)
  | shapePrepareUpdate (p : Nat)
  | convertFastArrayToArray (p : Nat)
  | deleteProperty (p atom : Nat)
  | updatePropertyFlags (p atom : Nat) (flags : Flags)
  | setPrototype (p proto : Nat)
  | freeObject (p : Nat)
  deriving DecidableEq, Repr

/-- What a call returns: an address, a truth value, or that there is no memory. -/
inductive Ret where
  | made (n : Nat)
  | done (ok : Bool)
  | failed
  deriving DecidableEq, Repr

/-- A pointer returned, where NULL is a failure. -/
def Ret.ofPtr (n : Nat) : Ret := if n = 0 then .failed else .made n

/-- An `int` returned, where -1 is a failure. -/
def Ret.ofBool (r : Option Bool) : Ret := r.elim .failed .done

/-- Perform a call; `none` if it does not return. -/
def exec (rt : Runtime V) (a : Allocs) : Op V → Option (Ret × Runtime V)
  | .newObject proto => (rt.newObjectProtoClass proto a).map (.map .ofPtr id)
  | .newObjectAlloc proto n => (rt.newObjectProtoClassAlloc proto n a).map (.map .ofPtr id)
  | .newShape proto props => (rt.newShapeWith proto props a).map (.map .ofPtr id)
  | .newObjectOfContext k props values mapped =>
    (rt.newObjectOfContext k props values mapped a).map (.map .ofPtr id)
  | .cloneForWrite p => (rt.cloneForWrite p a).map (.map .ofPtr id)
  | .addProperty p atom flags v =>
    (rt.addProperty p atom flags v a).map fun (ok, rt) => (if ok then .done true else .failed, rt)
  | .shapePrepareUpdate p =>
    (rt.shapePrepareUpdate p a).map fun (ok, rt) => (if ok then .done true else .failed, rt)
  | .convertFastArrayToArray p =>
    (rt.convertFastArrayToArray p a).map fun (ok, rt) => (if ok then .done true else .failed, rt)
  | .deleteProperty p atom => (rt.deleteProperty p atom a).map (.map .ofBool id)
  | .updatePropertyFlags p atom flags =>
    (rt.updatePropertyFlags p atom flags a).map (.map .ofBool id)
  | .setPrototype p proto => (rt.setPrototype p proto a).map (.map .ofBool id)
  | .freeObject p => (rt.freeObject p).map fun rt => (.done true, rt)

/-- What a runtime can come to before the freeze. -/
inductive Boot : Runtime V → Prop
  | start : Boot .initial
  | step {rt rt' : Runtime V} {a : Allocs} {op : Op V} {r : Ret} :
    Boot rt → exec rt a op = some (r, rt') → Boot rt'

/-- What it can come to afterwards, from `rt0` on. -/
inductive Serve (rt0 : Runtime V) : Runtime V → Prop
  | freeze : Serve rt0 rt0.freeze
  | step {rt rt' : Runtime V} {a : Allocs} {op : Op V} {r : Ret} :
    Serve rt0 rt → exec rt a op = some (r, rt') → Serve rt0 rt'
  | newRequest {rt : Runtime V} : Serve rt0 rt → Serve rt0 rt.newRequest

section
variable {rt rt' rt0 : Runtime V} {ids ids' : Nat → List Nat} {skip : Nat → Prop} {n : Nat}

/-- Each call keeps the tables in order. -/
theorem Keep.exec (h : Keep rt0 rt) (a : Allocs) (op : Op V) : Keeps rt0 (Shapes.exec rt a op) := by
  cases op with
  | newObject proto => exact .map (h.newObjectProtoClass proto a) fun _ => id
  | newObjectAlloc proto n => exact .map (h.newObjectProtoClassAlloc proto n a) fun _ => id
  | newShape proto props => exact .map (h.newShapeWith proto props a) fun _ => id
  | newObjectOfContext k props values mapped =>
    exact .map (h.newObjectOfContext k props values mapped a) fun _ => id
  | cloneForWrite p => exact .map (h.cloneForWrite p a) fun _ => id
  | addProperty p atom flags v => exact .map (h.addProperty p atom flags v a) fun _ => id
  | shapePrepareUpdate p => exact .map (h.shapePrepareUpdate p a) fun _ => And.left
  | convertFastArrayToArray p => exact .map (h.convertFastArrayToArray p a) fun _ => id
  | deleteProperty p atom => exact .map (h.deleteProperty p atom a) fun _ => id
  | updatePropertyFlags p atom flags =>
    exact .map (h.updatePropertyFlags p atom flags a) fun _ => id
  | setPrototype p proto => exact .map (h.setPrototype p proto a) fun _ => id
  | freeObject p => exact .map (h.freeObject p) fun _ => id

/-! ## Before the freeze, at the freeze, and at a new request -/

theorem Good.initial : Good (.initial : Runtime V) fun _ => False := by
  have hshape : ∀ n, (Runtime.initial : Runtime V).shape n = none := fun n => by
    cases n <;> rfl
  refine ⟨fun _ => [], fun _ => [], rfl, .empty _ _ fun v hv => List.eq_of_mem_replicate hv,
    .empty _ _ fun v hv => absurd hv List.not_mem_nil,
    fun hn => absurd hn (HashIndex.not_mem_empty _ _), fun hn =>
      absurd hn (HashIndex.not_mem_empty _ _),
    ?_, List.length_replicate .., .inl rfl, fun ha => by cases ha⟩
  rintro - n ⟨sh, hsh, -⟩
  rw [hshape] at hsh
  cases hsh

theorem Boot.keep (h : Boot rt) : Keep .initial rt := by
  induction h with
  | start => exact .refl .initial
  | step _ hr ih => exact (ih.exec _ _).of_eq hr

/-- `JS_FreezeRuntime`. -/
theorem Good.freeze (h : Good rt fun _ => False) (harena : rt.isArena = false) :
    Good rt.freeze fun _ => False := by
  obtain ⟨ids, ids', h⟩ := h
  have hno : ∀ n, ¬ Chained rt.overlay ids' n := fun n hn => by
    rw [(h.overNode hn).2.2.1] at harena
    cases harena
  refine ⟨ids, ids', h.null, h.base, h.overIdx, fun {n} hn => ?_, fun hn => absurd hn (hno _),
    fun ha => absurd ha (by simp [Runtime.freeze]), h.size, h.overlay, fun _ => ⟨Nat.le_refl _, ?_⟩⟩
  · obtain ⟨⟨sh, hsh, hh⟩, hs, -⟩ := h.baseNode hn
    exact ⟨⟨sh, hsh, hh⟩, hs, fun _ => Runtime.shape_lt hsh⟩
  · exact (List.getElem?_eq_some_iff.1 h.null).1

/-- `JS_ResetRequestArena`. -/
theorem Good.newRequest (h : Good rt fun _ => False) (harena : rt.isArena = true) :
    Good rt.newRequest fun _ => False := by
  obtain ⟨ids, ids', h⟩ := h
  obtain ⟨hle, hpos⟩ := h.bound harena
  have hshape : ∀ n < rt.baseShapes, rt.newRequest.shape n = rt.shape n := fun n hn => by
    rw [Runtime.shape, Runtime.newRequest, List.getElem?_take_of_lt hn, Runtime.shape]
  have hnode : ∀ n, Chained rt.shapeHash ids n → n < rt.baseShapes := fun n hn =>
    (h.baseNode hn).2.2 harena
  refine ⟨ids, fun _ => [], ?_, ?_, .empty _ _ fun v hv => absurd hv List.not_mem_nil,
    fun {n} hn => ?_, fun hn => absurd hn (HashIndex.not_mem_empty _ _), fun ha =>
      ?_, h.size, .inl rfl,
    fun _ => ⟨?_, hpos⟩⟩
  · rw [Runtime.newRequest, List.getElem?_take_of_lt hpos]
    exact h.null
  · refine h.base.congr (fun n hn => ?_) fun n hn => ?_
    · rw [Runtime.nextOf, hshape n (hnode n hn), Runtime.nextOf]
    · rw [Runtime.baseBucket, hshape n (hnode n hn), Runtime.baseBucket]
      rfl
  · obtain ⟨⟨sh, hsh, hh⟩, hs, hb⟩ := h.baseNode hn
    exact ⟨⟨sh, (hshape n (hnode n hn)).trans hsh, hh⟩, hs, hb⟩
  · exact absurd (harena.symm.trans ha) (by decide)
  · show rt.baseShapes ≤ (rt.shapes.take rt.baseShapes).length
    rw [List.length_take]
    omega

/-- From the freeze on the snapshot stays as it was then. -/
theorem Serve.keep (hb : Boot rt0) (h : Serve rt0 rt) : Keep rt0.freeze rt := by
  induction h with
  | freeze => exact .refl (hb.keep.good.freeze hb.keep.base.isArena)
  | step _ hr ih => exact (ih.exec _ _).of_eq hr
  | newRequest _ ih =>
    refine ⟨ih.good.newRequest ih.base.isArena,
      ih.base.trans ⟨fun _ => rfl, fun _ n hn => ?_, rfl, rfl⟩⟩
    rw [Runtime.newRequest, List.getElem?_take_of_lt hn]

/-! ## Lookups -/

/-- A walk along a chain ends at a shape that passes, or at the end. -/
theorem findIn_spec {heads : List Nat} {bucket : Nat → Option Nat} {own : Nat → List Nat}
    (hi : HashIndex rt.nextOf bucket heads own) (hnode : ∀ {n}, Chained heads own n → rt.Hashed n)
    (test : JSShape → Bool) {b v : Nat}
    (hv : heads[b]? = some v) : ∃ n, rt.findIn test v = some n ∧
      (n ≠ 0 → ∃ sh, rt.shape n = some sh ∧ sh.isHashed = true ∧ test sh = true) := by
  have hb := (List.getElem?_eq_some_iff.1 hv).1
  refine ⟨_, chainFind_spec (hi.chain hv) _ (Chains.length_lt hi hnode hb), fun h0 => ?_⟩
  cases hf : (own b).find? fun n => (rt.shape n).any test with
  | none => simp [hf] at h0
  | some n =>
    obtain ⟨sh, hsh, hh⟩ := hnode ⟨b, hb, List.mem_of_find?_eq_some hf⟩
    have ht := List.find?_some hf
    rw [hsh] at ht
    exact ⟨sh, hsh, hh, ht⟩

/-- Both lookups end, and what they find is live, hashed and as asked for. -/
theorem Good.findHashedShape (h : Good rt skip) (v : UInt32) (test : JSShape → Bool) :
    ∃ n, rt.findHashedShape v test = some n ∧
      (n ≠ 0 → ∃ sh, rt.shape n = some sh ∧ sh.isHashed = true ∧ test sh = true) := by
  obtain ⟨ids, ids', h⟩ := h
  obtain ⟨m, hm, hfound'⟩ := findIn_spec h.base (fun hn => (h.baseNode hn).1) test (h.base_head v)
  by_cases hov : rt.overlay = []
  · refine ⟨m, ?_, hfound'⟩
    rw [Runtime.findHashedShape, if_neg (by simpa using hov)]
    exact hm
  · obtain ⟨n, hn, hfound⟩ := findIn_spec h.overIdx (fun hn => (h.overNode hn).1) test
      (head_of_lt (overlayBucket_lt v (List.length_pos_iff.2 hov)))
    by_cases h0 : n = 0
    · refine ⟨m, ?_, hfound'⟩
      rw [Runtime.findHashedShape, if_pos hov, hn, h0]
      exact hm
    · refine ⟨n, ?_, hfound⟩
      rw [Runtime.findHashedShape, if_pos hov, hn]
      exact if_pos h0

/-! ## The shape hash in every state of a run -/

/-- The chains of both tables, with their shapes in order: no shape is on two of them or twice on
one, and each is live and hashed. -/
structure OnChains (rt : Runtime V) (base req : List (List Nat)) : Prop where
  inBase : List.Forall₂ (Chain rt.nextOf) rt.shapeHash base
  inOver : List.Forall₂ (Chain rt.nextOf) rt.overlay req
  nodup : (base.flatten ++ req.flatten).Nodup
  hashed : ∀ n ∈ base.flatten ++ req.flatten, rt.Hashed n

theorem Good.onChains (h : Good rt fun _ => False) (harena : rt.isArena = true) :
    ∃ base overlay, OnChains rt base overlay := by
  obtain ⟨ids, ids', h⟩ := h
  obtain ⟨hnd, hmem⟩ := h.base.flatten
  obtain ⟨hnd', hmem'⟩ := h.overIdx.flatten
  refine ⟨_, _, h.base.forall₂, h.overIdx.forall₂, ?_, fun n hn => ?_⟩
  · refine List.nodup_append.2 ⟨hnd, hnd', ?_⟩
    rintro n hn m hm rfl
    have hlt := (h.baseNode ((hmem n).1 hn)).2.2 harena
    have hle := (h.overNode ((hmem' n).1 hm)).2.2.2
    omega
  · rcases List.mem_append.1 hn with hn | hn
    · exact (h.baseNode ((hmem n).1 hn)).1
    · exact (h.overNode ((hmem' n).1 hn)).1

/-- `js_shape_hash_unlink` returns exactly in a request that has its overlay. -/
theorem Good.shapeHashUnlink_isSome (h : Good rt fun _ => False) (harena : rt.isArena = true)
    (hn : rt.Hashed n) (hreq : rt.baseShapes ≤ n) :
    (rt.shapeHashUnlink n).isSome = true ↔ rt.overlay ≠ [] := by
  obtain ⟨ids, ids', h⟩ := h
  obtain ⟨sh, hsh, hh⟩ := hn
  by_cases hov : rt.overlay = []
  · simp [h.shapeHashUnlink_none hsh harena hreq hov, hov]
  · obtain ⟨rt', hr, -⟩ := h.shapeHashUnlink_over hsh harena hreq hov
    simp [hr, hov]

/-- In every state of every request: both lookups end and find only live hashed shapes with the
prototype and the properties asked for; each shape is linked at most once and no chain holds a freed
one; the snapshot's table and shapes are as they were at the freeze; and `js_shape_hash_unlink` of a
hashed shape of the request returns exactly if the request has its overlay. -/
theorem Serve.consistent (hb : Boot rt0) (h : Serve rt0 rt) :
    (∀ proto, ∃ n, rt.findHashedShapeProto proto = some n ∧ (n ≠ 0 → ∃ sh, rt.shape n = some sh ∧
      sh.isHashed = true ∧ sh.proto = proto ∧ sh.keys = [])) ∧
    (∀ sh atom flags, ∃ n, rt.findHashedShapeProp sh atom flags = some n ∧ (n ≠ 0 → ∃ sh',
      rt.shape n = some sh' ∧ sh'.isHashed = true ∧ sh'.proto = sh.proto ∧
        sh'.keys = sh.keys ++ [(atom, flags)])) ∧
    (∃ base overlay, OnChains rt base overlay) ∧
    (rt.shapeHash = rt0.shapeHash ∧ ∀ n < rt0.shapes.length, rt.shapes[n]? = rt0.shapes[n]?) ∧
    ∀ n, rt.Hashed n → rt0.shapes.length ≤ n →
      ((rt.shapeHashUnlink n).isSome = true ↔ rt.overlay ≠ []) := by
  obtain ⟨hg, hsame⟩ := h.keep hb
  have harena : rt.isArena = true := hsame.isArena
  refine ⟨fun proto => ?_, fun sh atom flags => ?_, hg.onChains harena,
    ⟨hsame.shapeHash rfl, hsame.shapes rfl⟩, fun n hn hreq => ?_⟩
  · obtain ⟨n, hn, hfound⟩ := hg.findHashedShape (shapeInitialHash proto) _
    refine ⟨n, hn, fun h0 => ?_⟩
    obtain ⟨sh, hsh, hh, ht⟩ := hfound h0
    simp only [Bool.and_eq_true, decide_eq_true_eq] at ht
    exact ⟨sh, hsh, hh, ht.1.2, by simp [PropTable.keys, List.length_eq_zero_iff.1 ht.2]⟩
  · obtain ⟨n, hn, hfound⟩ := hg.findHashedShape (shapeHash (shapeHash sh.hash atom) flags) _
    refine ⟨n, hn, fun h0 => ?_⟩
    obtain ⟨sh', hsh', hh, ht⟩ := hfound h0
    simp only [Bool.and_eq_true, decide_eq_true_eq] at ht
    exact ⟨sh', hsh', hh, ht.1.2, ht.2⟩
  · exact hg.shapeHashUnlink_isSome harena hn (by rw [hsame.baseShapes]; exact hreq)

/-- All allocations succeed. -/
def Allocs.granted : Allocs := ⟨true, true, true, true, true, true, false, true, true⟩

/-- There is no memory for the overlay. -/
def Allocs.noOverlay : Allocs := { Allocs.granted with overlay := false }

/-- The first object of a request, on an empty snapshot. -/
def firstObject (a : Allocs) : Runtime Nat :=
  ((exec (Runtime.initial : Runtime Nat).freeze a (.newObject 0)).map Prod.snd).getD .initial

theorem exec_firstObject_noOverlay :
    exec (Runtime.initial : Runtime Nat).freeze .noOverlay (.newObject 0) =
      some (.made 1, firstObject .noOverlay) := by decide +kernel

theorem Runtime.hashed_of_any (h : (rt.shape n).any (·.isHashed) = true) : rt.Hashed n := by
  obtain ⟨sh, hsh, hh⟩ := Option.any_eq_true _ _ |>.1 h
  exact ⟨sh, hsh, hh⟩

/-- Calls with enough memory, one after the other. -/
def runCalls (rt : Runtime Nat) (ops : List (Op Nat)) : Option (Runtime Nat) :=
  ops.foldlM (fun rt op => (exec rt .granted op).map Prod.snd) rt

theorem runCalls_keeps {P : Runtime Nat → Prop} (hP : ∀ {rt rt' : Runtime Nat} {a : Allocs}
    {op : Op Nat} {r : Ret}, P rt → exec rt a op = some (r, rt') → P rt') {ops : List (Op Nat)} :
    ∀ {rt rt' : Runtime Nat}, P rt → runCalls rt ops = some rt' → P rt' := by
  induction ops with
  | nil => exact fun h hr => Option.some.inj hr ▸ h
  | cons op ops ih =>
    intro rt rt' h hr
    obtain ⟨rt1, hr1, hr⟩ := Option.bind_eq_some_iff.1 hr
    obtain ⟨⟨r, rt2⟩, he, rfl⟩ := Option.map_eq_some_iff.1 hr1
    exact ih (hP h he) hr

/-- A snapshot with an object that has a property. -/
def oneProperty : Runtime Nat :=
  (runCalls .initial [.newObject 0, .addProperty 1 5 propCWE 0]).getD .initial

/-- A request with two objects: they start with the property of the snapshot's, share the next one,
and the second has one more. -/
def twoObjects : Runtime Nat :=
  (runCalls oneProperty.freeze
    [.newObject 0, .addProperty 2 5 propCWE 1, .addProperty 2 7 propCWE 1,
      .newObject 0, .addProperty 3 5 propCWE 1, .addProperty 3 7 propCWE 1,
      .addProperty 3 9 propCWE 1]).getD .initial

/-- The request can take either of its shapes off its chain, and the snapshot has its own. -/
theorem twoObjects_consistent : Serve oneProperty twoObjects ∧
    (∀ n ∈ [3, 5], twoObjects.Hashed n ∧ (twoObjects.shapeHashUnlink n).isSome = true) ∧
    twoObjects.shapeHash = oneProperty.shapeHash ∧
    twoObjects.shapes[1]? = oneProperty.shapes[1]? := by
  have hboot : Boot oneProperty := runCalls_keeps .step .start
    (show runCalls _ [.newObject 0, .addProperty 1 5 propCWE 0] = _ by decide +kernel)
  have hserve : Serve oneProperty twoObjects := runCalls_keeps .step .freeze
    (show runCalls _ [.newObject 0, .addProperty 2 5 propCWE 1, .addProperty 2 7 propCWE 1,
      .newObject 0, .addProperty 3 5 propCWE 1, .addProperty 3 7 propCWE 1,
      .addProperty 3 9 propCWE 1] = _ by decide +kernel)
  obtain ⟨-, -, -, ⟨hhash, hshapes⟩, hunlink⟩ := Serve.consistent hboot hserve
  refine ⟨hserve, fun n hn => ?_, hhash, hshapes 1 (by decide +kernel)⟩
  have hh : ∀ n ∈ [3, 5], (twoObjects.shape n).any (·.isHashed) = true := by decide +kernel
  have hle : ∀ n ∈ [3, 5], oneProperty.shapes.length ≤ n := by decide +kernel
  have hn' := Runtime.hashed_of_any (hh n hn)
  exact ⟨hn', (hunlink n hn' (hle n hn)).2 (by decide +kernel)⟩

/-- Without memory for the overlay the first shape of a request is hashed and on no chain;
`js_shape_hash_unlink` then walks past the end of a chain of the snapshot, and so does the first
addition of a property to the object. -/
theorem firstObject_unlink :
    Boot (.initial : Runtime Nat) ∧ Serve .initial (firstObject .noOverlay) ∧
    (firstObject .noOverlay).Hashed 1 ∧ (Runtime.initial : Runtime Nat).shapes.length ≤ 1 ∧
    (firstObject .noOverlay).shapeHashUnlink 1 = none ∧
    exec (firstObject .noOverlay) .granted (.addProperty 1 5 propCWE 0) = none :=
  ⟨.start, .step .freeze exec_firstObject_noOverlay, Runtime.hashed_of_any (by decide +kernel),
    by decide, by decide +kernel, by decide +kernel⟩

end

end ArenaJs.Shapes
