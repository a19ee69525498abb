import ArenaJs.Atoms.Canonical
import ArenaJs.Atoms.Frame
import ArenaJs.Trace.Emitter

/-!
# Names in the event stream

A reactor runs programs one after the other, and the host reads one stream of events. The atoms that
events refer to are numbers of the snapshot's atom table or of the selected request's overlay, and
an overlay is emptied by every reset: the same number then stands for another text. `Life` is an
overlay between two resets.

`names_resolve` is the condition under which a host can read the stream: a request is reset, and
another one entered, only while the table of announced names holds atoms of the snapshot alone; the
table does not fill up; and every name could be converted and fits its event. The reactor's own
calls do not see to the first: only `arena_run_module_r` clears the table, and
`second_run_keeps_name` is two `arena_run_r` calls that the host cannot tell apart.
-/

namespace ArenaJs.Trace

open Function (update update_apply update_of_ne update_self)

open Atoms (Snapshot Request NoNum Frozen Extends tagInt)

/-! ## Texts -/

/-- `utf8_encode`. -/
def utf8Encode (c : Nat) : List Nat :=
  if c < 0x80 then [c]
  else if c < 0x800 then [c / 64 + 0xC0, c % 64 + 0x80]
  else if c < 0x10000 then [c / 4096 + 0xE0, c / 64 % 64 + 0x80, c % 64 + 0x80]
  else [c / 262144 + 0xF0, c / 4096 % 64 + 0x80, c / 64 % 64 + 0x80, c % 64 + 0x80]

/-- `is_hi_surrogate`. -/
def isHiSurrogate (c : Nat) : Bool := c / 1024 = 0xD800 / 1024

/-- `is_lo_surrogate`. -/
def isLoSurrogate (c : Nat) : Bool := c / 1024 = 0xDC00 / 1024

/-- `from_surrogate`. -/
def fromSurrogate (hi lo : Nat) : Nat := 65536 + 1024 * (hi % 1024) + lo % 1024

/-- The bytes of `JS_ToCString`; an unmatched surrogate is written like any code point. -/
def toCString : List Nat → List Nat
  | [] => []
  | [c] => utf8Encode c
  | c :: d :: s =>
    if isHiSurrogate c && isLoSurrogate d then utf8Encode (fromSurrogate c d) ++ toCString s
    else utf8Encode c ++ toCString (d :: s)

/-- The text of an atom as a C string. -/
def textOf (rt : Atoms.Runtime) (i : Nat) : Option (List Nat) :=
  (rt.denotes i).map fun d => toCString d.2

/-! ## The reactor -/

/-- The overlay of a request since its last reset. No two lives have the same stamp. -/
structure Life where
  req : Request
  stamp : Nat

/-- The reactor's calls that run programs. -/
inductive Entry where
  | run
  | runModule
  | requestEval
  | requestPump
  deriving DecidableEq, Repr

/-- An entry of the stream: the start of a run, or an event with the atoms of the moment. -/
inductive Item where
  | start (e : Entry)
  | event (e : Event) (rt : Atoms.Runtime) (stamp : Nat)

/-- A reactor and its requests. `last` is the stamp of the life that was selected last. `stack` are
the hooks that are being executed, the innermost first, each with the steps it has still to take;
`stream` is the newest first. -/
structure Reactor where
  base : Snapshot
  reqs : Nat → Option Life
  cur : Option Nat
  last : Nat
  next : Nat
  trace : TraceState
  stack : List (Hook × List Micro)
  stream : List Item

namespace Reactor

variable (s : Reactor)

/-- The atoms, as code of the request sees them. -/
def runtime (l : Life) : Atoms.Runtime := ⟨true, s.base, l.req⟩

/-- The atoms of the snapshot alone. -/
def snapshot : Atoms.Runtime := ⟨true, s.base, Request.fresh s.base⟩

/-- The selected request. -/
def life : Option Life := s.cur.bind s.reqs

/-- A new life. -/
def born (k : Nat) : Reactor :=
  { s with reqs := update s.reqs k (some ⟨Request.fresh s.base, s.next⟩), next := s.next + 1 }

/-- `JS_ResetRequestArena`. -/
def reset : Reactor :=
  match s.cur with
  | none => s
  | some k => { s.born k with last := s.next }

/-- What a call does before it runs the program. -/
def call : Entry → Reactor
  | .run => { s.reset with stream := .start .run :: s.stream }
  | .runModule =>
    let s := s.reset
    { s with trace := arenaTraceReset s.trace, stream := .start .runModule :: s.stream }
  | e => { s with stream := .start e :: s.stream }

/-- The atoms of the selected request after a call on them. -/
def putAtoms (l : Life) (rt : Atoms.Runtime) : Reactor :=
  { s with base := rt.base, reqs := fun k => if s.cur = some k then some ⟨rt.req, l.stamp⟩
    else s.reqs k }

/-- Deliver an event. -/
def deliver (l : Life) (e : Event) : Reactor :=
  { s with stream := .event e (s.runtime l) l.stamp :: s.stream }

end Reactor

/-- What can happen. The program is not modelled: it calls the atom functions and enters hooks in
any order. `converts` is whether `JS_AtomToCString` gets its memory. -/
inductive Act where
  | setTraceMode (mode : Int)
  | newRequest (k : Nat)
  | enter (k : Nat)
  | leave
  | free (k : Nat)
  | reset
  | call (e : Entry)
  | atoms (op : Atoms.Op)
  | hook (h : Hook)
  | micro (converts : Bool)
  | finish (stop : Bool)

/-- One step of a hook in the request `l`. An atom that is not in the tables does not pass the
assertion of `JS_AtomToCString`. -/
def Reactor.micro (s : Reactor) (l : Life) (converts : Bool) : Micro → Option Reactor
  | .ensure a =>
    if nameSeen s.trace a then some s
    else (textOf (s.runtime l) a).map fun text =>
      let (trace, e) := ensureName s.trace a (if converts then some text else none)
      let s := { s with trace }
      match e with
      | none => s
      | some e => s.deliver l e
  | .deliver e => some (s.deliver l e)

/-- One step. `none` is a call that is refused or does not return. Requests are switched and
programs started when no program runs, so not from within a hook; and without a request there is no
memory to run a program in. -/
def Reactor.exec (s : Reactor) : Act → Option Reactor
  | .setTraceMode mode => some { s with trace := { s.trace with mode } }
  | .newRequest k => if (s.reqs k).isSome then none else some (s.born k)
  | .enter k =>
    if s.stack = [] then (s.reqs k).map fun l => { s with cur := some k, last := l.stamp } else none
  | .leave => if s.stack = [] then some { s with cur := none } else none
  | .free k =>
    if s.cur = some k then
      if s.stack = [] then some { s with cur := none, reqs := update s.reqs k none } else none
    else some { s with reqs := update s.reqs k none }
  | .reset => if s.stack = [] then some s.reset else none
  | .call e => if s.stack = [] then some (s.call e) else none
  | .atoms op =>
    s.life.bind fun l =>
      if op = .request ∨ op = .freeze then none
      else ((s.runtime l).exec op).map fun r => s.putAtoms l r.2
  | .hook h =>
    s.life.map fun _ =>
      match h.start s.trace with
      | none => s
      | some trace => { s with trace, stack := (h, h.todo) :: s.stack }
  | .micro converts =>
    match s.stack with
    | (h, m :: todo) :: stack =>
      s.life.bind fun l => ({ s with stack := (h, todo) :: stack }).micro l converts m
    | _ => none
  | .finish stop =>
    match s.stack with
    | (h, []) :: stack => some { s with trace := h.finish s.trace stop, stack }
    | _ => none

/-- A reactor with one request, over a frozen runtime. -/
def Reactor.init (rt : Atoms.Runtime) : Reactor :=
  ⟨rt.base, fun k => if k = 0 then some ⟨rt.req, 0⟩ else none, some 0, 0, 1, .init, [], []⟩

/-- A run. -/
def Reactor.runs (s : Reactor) : List Act → Option Reactor
  | [] => some s
  | a :: acts => (s.exec a).bind fun s => s.runs acts

/-! ## The stream -/

/-- The most recent announcement of an atom, with the life it was made in. -/
def lastName (i : Nat) : List Item → Option (List Nat × Nat)
  | [] => none
  | .event (.name a text) _ stamp :: rest => if a = i then some (text, stamp) else lastName i rest
  | _ :: rest => lastName i rest

/-- The atoms announced in the last run. -/
def announced : List Item → List Nat
  | [] => []
  | .start _ :: _ => []
  | .event (.name a _) _ _ :: rest => a :: announced rest
  | .event _ _ _ :: rest => announced rest

/-- Every event refers to atoms by their names: the last name of the atom is its text at the
moment. -/
def Resolves : List Item → Prop
  | [] => True
  | .start _ :: rest => Resolves rest
  | .event e rt _ :: rest =>
    (∀ i ∈ e.ids, ∃ text ∈ textOf rt i, (lastName i rest).map (·.1) = some text) ∧ Resolves rest

/-- Reading the stream decides it. -/
def decResolves : ∀ stream, Decidable (Resolves stream)
  | [] => .isTrue trivial
  | .start _ :: rest => decResolves rest
  | .event e rt _ :: rest =>
    have := decResolves rest
    inferInstanceAs (Decidable ((∀ i ∈ e.ids, ∃ text ∈ textOf rt i,
      (lastName i rest).map (·.1) = some text) ∧ Resolves rest))

instance (stream : List Item) : Decidable (Resolves stream) := decResolves stream

/-- No run announces an atom twice. -/
def AnnouncedOnce : List Item → Prop
  | [] => True
  | .event (.name a _) _ _ :: rest => a ∉ announced rest ∧ AnnouncedOnce rest
  | _ :: rest => AnnouncedOnce rest

/-! ## The condition -/

/-- The table of announced names holds no atom of an overlay. -/
def Reactor.Settled (s : Reactor) : Prop :=
  ∀ i ∈ s.trace.nameTable, (textOf s.snapshot i).isSome = true

instance (s : Reactor) : Decidable s.Settled := inferInstanceAs (Decidable (∀ i ∈ _, _))

/-- A step of a hook that the host can follow: an atom is announced only if the table has room for
it and its text is delivered in full. -/
def Micro.Clear (s : Reactor) (l : Life) (converts : Bool) : Micro → Prop
  | .ensure a => nameSeen s.trace a = true ∨ s.trace.nameTable.length < nameCap ∧ converts = true ∧
      ∀ text ∈ textOf (s.runtime l) a, Announceable text
  | .deliver _ => True

/-- The steps the host can follow. A reset, which `arena_run_r` starts with, and the entry of
another life than the last find no atom of an overlay in the table. Calls of the atom functions
spare the snapshot. -/
def Act.Clear (s : Reactor) : Act → Prop
  | .reset | .call .run => s.cur = none ∨ s.Settled
  | .enter k => (∀ l ∈ s.reqs k, l.stamp = s.last) ∨ s.Settled
  | .atoms op => ∀ l ∈ s.life, op.Sparing (s.runtime l)
  | .micro converts => ∀ l ∈ s.life, ∀ x ∈ s.stack.head?, ∀ m ∈ x.2.head?, m.Clear s l converts
  | _ => True

/-- The states that runs of such steps reach. -/
inductive Reach (P : Reactor → Act → Prop) (s0 : Reactor) : Reactor → Prop where
  | init : Reach P s0 s0
  | step {s s' : Reactor} {a : Act} : Reach P s0 s → P s a → s.exec a = some s' → Reach P s0 s'

/-! ## Lives -/

/-- The tables of a frozen runtime, over the chains of its snapshot. -/
def Good (ids : Nat → List Nat) (rt : Atoms.Runtime) :
    Prop := ∃ ids', Frozen NoNum rt ids ids' fun _ => True

section
variable {ids : Nat → List Nat} {s s' : Reactor} {rt rt' : Atoms.Runtime} {l : Life} {i k : Nat}
variable {text : List Nat} {e : Event}

theorem Good.textOf_extends (h : Good ids rt) (h' : Good ids rt') (he : Extends rt rt')
    (ht : textOf rt i = some text) : textOf rt' i = some text := by
  obtain ⟨ids1, h⟩ := h
  obtain ⟨ids2, h'⟩ := h'
  obtain ⟨d, hd, rfl⟩ := Option.map_eq_some_iff.1 ht
  rw [textOf, Extends.denotes h he h' hd, Option.map_some]

/-- A new request has the atoms of the snapshot. -/
theorem Good.fresh (h : Good ids rt) : Good ids ⟨true, rt.base, Request.fresh rt.base⟩ := by
  obtain ⟨ids', h⟩ := h
  exact ⟨_, Frozen.fresh h.ok.base h.complete h.ok.hash_ne h.len _⟩

/-- Every request has the snapshot's atoms, and its own. -/
theorem Good.extends (h : Good ids (s.runtime l)) : Extends s.snapshot (s.runtime l) := by
  obtain ⟨ids', h⟩ := h
  refine ⟨rfl, rfl, h.first, fun {j d} hd => ?_⟩
  obtain ⟨p, hp, -⟩ := Atoms.atomIn_eq_some.1 hd
  simp [Reactor.snapshot, Request.slot, Request.fresh] at hp

/-- The lives of a reactor: their tables are sound, no two have the same stamp, and the selected one
was selected last. -/
structure Lives (ids : Nat → List Nat) (s : Reactor) : Prop where
  good : ∀ {k l}, s.reqs k = some l → Good ids (s.runtime l)
  snap : Good ids s.snapshot
  older : ∀ {k l}, s.reqs k = some l → l.stamp < s.next
  apart : ∀ {k k' l l'}, s.reqs k = some l → s.reqs k' = some l' → l.stamp = l'.stamp → k = k'
  sel : ∀ {k}, s.cur = some k → ∃ l, s.reqs k = some l ∧ l.stamp = s.last

/-- What is kept while requests come, run and go: a life of the later state is new, or it was there
and has kept its texts. -/
structure Follows (s s' : Reactor) : Prop where
  base : s'.base = s.base
  next : s.next ≤ s'.next
  life : ∀ {k l'}, s'.reqs k = some l' → s.next ≤ l'.stamp ∨ ∃ l, s.reqs k = some l ∧
    l.stamp = l'.stamp ∧ ∀ {i text}, textOf (s.runtime l) i = some text →
      textOf (s'.runtime l') i = some text

theorem Reactor.snapshot_congr (h : s'.base = s.base) : s'.snapshot = s.snapshot := by
  rw [snapshot, snapshot, h]

theorem Lives.init (h : Good ids rt) (harena : rt.isArena = true) :
    Lives ids (Reactor.init rt) := by
  have hreq : ∀ {k l}, (Reactor.init rt).reqs k = some l → k = 0 ∧ l = ⟨rt.req, 0⟩ := by
    intro k l hk
    obtain ⟨h0, ⟨⟩⟩ := Option.ite_none_right_eq_some.1 hk
    exact ⟨h0, rfl⟩
  refine ⟨fun hk => ?_, h.fresh, fun hk => ?_, fun hk hk' _ => ?_, ?_⟩
  · obtain ⟨-, rfl⟩ := hreq hk
    have hrt : (Reactor.init rt).runtime ⟨rt.req, 0⟩ = rt := by
      obtain ⟨isArena, base, req⟩ := rt
      obtain rfl : isArena = true := harena
      rfl
    rwa [hrt]
  · obtain ⟨-, rfl⟩ := hreq hk
    exact Nat.zero_lt_one
  · rw [(hreq hk).1, (hreq hk').1]
  · rintro _ ⟨⟩
    exact ⟨_, rfl, rfl⟩

/-- A reset, or a new request. -/
theorem Lives.born (h : Lives ids s) (k last : Nat)
    (hsel : ∀ {j}, s.cur = some j → ∃ l, (s.born k).reqs j = some l ∧ l.stamp = last) :
    Lives ids { s.born k with last } ∧ Follows s { s.born k with last } := by
  have hreq : ∀ {j l}, (s.born k).reqs j = some l →
      j = k ∧ l = ⟨Request.fresh s.base, s.next⟩ ∨ j ≠ k ∧ s.reqs j = some l := by
    intro j l hj
    simp only [Reactor.born, update_apply] at hj
    split at hj
    · exact .inl ⟨‹j = k›, (Option.some.inj hj).symm⟩
    · exact .inr ⟨‹j ≠ k›, hj⟩
  refine ⟨⟨fun hj => ?_, h.snap, fun hj => ?_, fun {j j' l l'} hj hj' heq => ?_, hsel⟩,
    ⟨rfl, Nat.le_succ _, fun {j l} hj => ?_⟩⟩
  · rcases hreq hj with ⟨-, rfl⟩ | ⟨-, hj⟩
    · exact h.snap
    · exact h.good hj
  · rcases hreq hj with ⟨-, rfl⟩ | ⟨-, hj⟩
    · exact Nat.lt_succ_self _
    · exact Nat.lt_succ_of_lt (h.older hj)
  · rcases hreq hj with ⟨hjk, rfl⟩ | ⟨-, hj⟩ <;> rcases hreq hj' with ⟨hjk', rfl⟩ | ⟨-, hj'⟩
    · exact hjk.trans hjk'.symm
    · exact absurd heq.symm (Nat.ne_of_lt (h.older hj'))
    · exact absurd heq (Nat.ne_of_lt (h.older hj))
    · exact h.apart hj hj' heq
  · rcases hreq hj with ⟨-, rfl⟩ | ⟨-, hj⟩
    · exact .inl (Nat.le_refl _)
    · exact .inr ⟨l, hj, rfl, id⟩

/-- A request is freed. -/
theorem Lives.free (h : Lives ids s) (k : Nat) (c : Option Nat)
    (hc : ∀ {j}, c = some j → j ≠ k ∧ s.cur = some j) :
    Lives ids { s with cur := c, reqs := update s.reqs k none } ∧
      Follows s { s with cur := c, reqs := update s.reqs k none } := by
  have hreq : ∀ {j l}, update s.reqs k none j = some l → s.reqs j = some l := by
    intro j l hj
    rw [update_apply] at hj
    split at hj
    · cases hj
    · exact hj
  refine ⟨⟨fun hj => h.good (hreq hj), h.snap, fun hj => h.older (hreq hj),
      fun hj hj' => h.apart (hreq hj) (hreq hj'), fun hj => ?_⟩,
    ⟨rfl, Nat.le_refl _, fun hj => .inr ⟨_, hreq hj, rfl, id⟩⟩⟩
  obtain ⟨l, hl, hst⟩ := h.sel (hc hj).2
  exact ⟨l, (update_of_ne (hc hj).1 ..).trans hl, hst⟩

/-- The selected request calls an atom function. -/
theorem Lives.putAtoms (h : Lives ids s) (hl : s.life = some l) (hgood : Good ids rt')
    (hext : Extends (s.runtime l) rt') :
    Lives ids (s.putAtoms l rt') ∧ Follows s (s.putAtoms l rt') := by
  obtain ⟨c, hc, hcl⟩ := Option.bind_eq_some_iff.1 hl
  have hbase : rt'.base = s.base := hext.base
  have hview : ∀ l', (s.putAtoms l rt').runtime l' = s.runtime l' := fun l' => by
    simp [Reactor.runtime, Reactor.putAtoms, hbase]
  have hself : (s.putAtoms l rt').runtime ⟨rt'.req, l.stamp⟩ = rt' := by
    have harena : rt'.isArena = true := hext.arena
    obtain ⟨isArena, base, req⟩ := rt'
    obtain rfl : isArena = true := harena
    rfl
  have hreq : ∀ {j l'}, (s.putAtoms l rt').reqs j = some l' →
      s.reqs j = some l ∧ l' = ⟨rt'.req, l.stamp⟩ ∨ s.reqs j = some l' := by
    intro j l' hj
    simp only [Reactor.putAtoms, hc, Option.some.injEq] at hj
    split at hj
    · next hcj => exact .inl ⟨hcj ▸ hcl, (Option.some.inj hj).symm⟩
    · exact .inr hj
  -- the stamps are those of before
  have hold : ∀ {j l'}, (s.putAtoms l rt').reqs j = some l' → ∃ l0, s.reqs j = some l0 ∧
      l0.stamp = l'.stamp := by
    intro j l' hj
    rcases hreq hj with ⟨hjl, rfl⟩ | hjl
    · exact ⟨l, hjl, rfl⟩
    · exact ⟨l', hjl, rfl⟩
  refine ⟨⟨fun {j l'} hj => ?_, ?_, fun hj => ?_, fun hj hj' heq => ?_, fun hj => ?_⟩,
    ⟨hbase, Nat.le_refl _, fun {j l'} hj => .inr ?_⟩⟩
  · rcases hreq hj with ⟨-, rfl⟩ | hj
    · rwa [hself]
    · rw [hview]
      exact h.good hj
  · rw [Reactor.snapshot_congr (s := s) hbase]
    exact h.snap
  · obtain ⟨l0, hj, hst⟩ := hold hj
    exact hst ▸ h.older hj
  · obtain ⟨l0, hj, hst⟩ := hold hj
    obtain ⟨l1, hj', hst'⟩ := hold hj'
    exact h.apart hj hj' (hst.trans (heq.trans hst'.symm))
  · obtain ⟨l0, hj0, hst⟩ := h.sel hj
    cases hc.symm.trans hj
    cases hcl.symm.trans hj0
    exact ⟨⟨rt'.req, l.stamp⟩, if_pos hj, hst⟩
  · rcases hreq hj with ⟨hjl, rfl⟩ | hjl
    · refine ⟨l, hjl, rfl, fun ht => ?_⟩
      rw [hself]
      exact (h.good hjl).textOf_extends hgood hext ht
    · exact ⟨l', hjl, rfl, fun ht => by rwa [hview]⟩

/-- The selected request is reset. -/
theorem Lives.reset (h : Lives ids s) : Lives ids s.reset ∧ Follows s s.reset := by
  unfold Reactor.reset
  split
  · exact ⟨h, rfl, Nat.le_refl _, fun hk => .inr ⟨_, hk, rfl, id⟩⟩
  · next k hk =>
    refine h.born k s.next fun hj => ?_
    cases hk.symm.trans hj
    exact ⟨_, update_self .., rfl⟩

theorem Reactor.reset_kept (s : Reactor) :
    s.reset.trace = s.trace ∧ s.reset.stack = s.stack ∧ s.reset.stream = s.stream := by
  unfold Reactor.reset
  split <;> exact ⟨rfl, rfl, rfl⟩

/-! ## The invariant -/

/-- The last name of an atom is its text, in the life it was announced in and in the snapshot. -/
def Named (s : Reactor) (i : Nat) : Prop :=
  ∃ m, lastName i s.stream = some m ∧ m.2 < s.next ∧
    (∀ {text}, textOf s.snapshot i = some text → text = m.1) ∧
    ∀ {k l}, s.reqs k = some l → l.stamp = m.2 → textOf (s.runtime l) i = some m.1

theorem Named.follows (h : Named s i) (hf : Follows s s')
    (hlast : lastName i s'.stream = lastName i s.stream) : Named s' i := by
  obtain ⟨m, hm, hlt, hsnap, hlife⟩ := h
  refine ⟨m, hlast.trans hm, Nat.lt_of_lt_of_le hlt hf.next, ?_, fun {k l'} hk hst => ?_⟩
  · rw [Reactor.snapshot_congr hf.base]
    exact hsnap
  · rcases hf.life hk with hnew | ⟨l, hk, hst', htext⟩
    · omega
    · exact htext (hlife hk (hst'.trans hst))

/-- The invariant of a run the host can follow. -/
structure Inv (ids : Nat → List Nat) (s : Reactor) : Prop extends Lives ids s where
  names : ∀ {i}, i ∈ s.trace.nameTable → Named s i
  current : ∀ {i}, i ∈ s.trace.nameTable → (textOf s.snapshot i).isSome = true ∨
    ∀ m ∈ lastName i s.stream, m.2 = s.last
  order : ∀ {x}, x ∈ s.stack → Announced s.trace.nameTable x.2
  listed : ∀ {i}, i ∈ announced s.stream → i ∈ s.trace.nameTable
  once : AnnouncedOnce s.stream
  resolves : Resolves s.stream

theorem Inv.init (h : Good ids rt) (harena : rt.isArena = true) : Inv ids (Reactor.init rt) :=
  { Lives.init h harena with
    names := nofun
    current := nofun
    order := nofun
    listed := nofun
    once := trivial
    resolves := trivial }

/-- Steps that do not touch the emitter. -/
theorem Inv.follows (h : Inv ids s) (hl : Lives ids s' ∧ Follows s s')
    (htable : s'.trace.nameTable = s.trace.nameTable) (hstack : s'.stack = s.stack)
    (hstream : s'.stream = s.stream) (hlast : s'.last = s.last ∨ s.Settled) : Inv ids s' :=
  { hl.1 with
    names := fun hi => (h.names (htable ▸ hi)).follows hl.2 (by rw [hstream])
    current := fun {i} hi => by
      rw [Reactor.snapshot_congr hl.2.base, hstream]
      rw [htable] at hi
      exact hlast.elim (fun hlast => hlast ▸ h.current hi) fun hs => .inl (hs i hi)
    order := fun hx => htable ▸ h.order (hstack ▸ hx)
    listed := fun hi => htable ▸ h.listed (hstream ▸ hi)
    once := hstream ▸ h.once
    resolves := hstream ▸ h.resolves }

/-- Steps of the emitter that announce nothing. -/
theorem Inv.quiet (h : Inv ids s) {trace : TraceState} {stack : List (Hook × List Micro)}
    (htable : trace.nameTable = s.trace.nameTable)
    (horder : ∀ {x}, x ∈ stack → Announced s.trace.nameTable x.2) :
    Inv ids { s with trace, stack } :=
  { h with
    names := fun hi => h.names (htable ▸ hi)
    current := fun hi => h.current (htable ▸ hi)
    order := fun hx => htable ▸ horder hx
    listed := fun hi => htable ▸ h.listed hi }

/-! ## Steps -/

/-- Code of the selected request sees the snapshot's atoms. -/
theorem Lives.textOf_snapshot (h : Lives ids s) (hl : s.life = some l)
    (ht : textOf s.snapshot i = some text) : textOf (s.runtime l) i = some text := by
  obtain ⟨c, -, hcl⟩ := Option.bind_eq_some_iff.1 hl
  exact h.snap.textOf_extends (h.good hcl) (h.good hcl).extends ht

/-- A new name. -/
theorem Inv.announce (h : Inv ids s) (hl : s.life = some l) {a : Nat}
    (hnew : a ∉ s.trace.nameTable) (htext : textOf (s.runtime l) a = some text) :
    Inv ids (({ s with trace := { s.trace with nameTable := s.trace.nameTable ++ [a] } }).deliver l
      (.name a text)) := by
  obtain ⟨c, hc, hcl⟩ := Option.bind_eq_some_iff.1 hl
  have hlast : ∀ {i}, i ≠ a → lastName i (.event (.name a text) (s.runtime l) l.stamp :: s.stream) =
      lastName i s.stream := fun hne => if_neg (Ne.symm hne)
  have hold : ∀ {i}, i ∈ s.trace.nameTable ++ [a] → i ≠ a → i ∈ s.trace.nameTable := fun hi hne =>
    (List.mem_append.1 hi).resolve_right fun hi => hne (List.mem_singleton.1 hi)
  refine
    { h with
      names := fun {i} hi => ?_
      current := fun {i} hi => ?_
      order := fun hx => (h.order hx).mono (List.subset_append_left ..)
      listed := fun {i} hi => ?_
      once := ⟨fun ha => hnew (h.listed ha), h.once⟩
      resolves := ⟨nofun, h.resolves⟩ }
  · by_cases hia : i = a
    · subst hia
      refine ⟨(text, l.stamp), if_pos rfl, h.older hcl, fun ht => ?_, fun {k l'} hk hst => ?_⟩
      · exact Option.some.inj ((h.textOf_snapshot hl ht).symm.trans htext)
      · -- the life of that stamp is the selected one
        obtain rfl := h.apart hk hcl hst
        cases hcl.symm.trans hk
        exact htext
    · obtain ⟨m, hm, hrest⟩ := h.names (hold hi hia)
      exact ⟨m, (hlast hia).trans hm, hrest⟩
  · by_cases hia : i = a
    · subst hia
      refine .inr fun m hm => ?_
      obtain ⟨l', hl', hst⟩ := h.sel hc
      cases hcl.symm.trans hl'
      cases (if_pos rfl).symm.trans (Option.mem_def.1 hm)
      exact hst
    · refine (h.current (hold hi hia)).imp id fun hst m hm => ?_
      exact hst m ((hlast hia).symm.trans hm)
  · rcases List.mem_cons.1 hi with rfl | hi
    · exact List.mem_append_right _ (List.mem_singleton_self i)
    · exact List.mem_append_left _ (h.listed hi)

theorem lastName_event {stamp : Nat} {rest : List Item} (he : e.isName = false) :
    lastName i (.event e rt stamp :: rest) = lastName i rest := by
  cases e <;> first | rfl | cases he

theorem announced_event {stamp : Nat} {rest : List Item} (he : e.isName = false) :
    announced (.event e rt stamp :: rest) = announced rest := by
  cases e <;> first | rfl | cases he

/-- An event the host can follow. -/
theorem Inv.deliver (h : Inv ids s) (hl : s.life = some l) (he : e.isName = false)
    (hknown : ∀ i ∈ e.ids, i ∈ s.trace.nameTable) : Inv ids (s.deliver l e) := by
  obtain ⟨c, hc, hcl⟩ := Option.bind_eq_some_iff.1 hl
  have honce : AnnouncedOnce (.event e (s.runtime l) l.stamp :: s.stream) := by
    cases e <;> first | exact h.once | cases he
  refine
    { h with
      names := fun hi => ?_
      current := fun hi => ?_
      listed := fun hi => h.listed (announced_event he ▸ hi)
      once := honce
      resolves := ⟨fun i hi => ?_, h.resolves⟩ }
  · obtain ⟨m, hm, hrest⟩ := h.names hi
    exact ⟨m, (lastName_event he).trans hm, hrest⟩
  · exact (h.current hi).imp id fun hst m hm => hst m ((lastName_event he).symm.trans hm)
  · obtain ⟨m, hm, -, hsnap, hlife⟩ := h.names (hknown i hi)
    refine ⟨m.1, ?_, by rw [hm, Option.map_some]⟩
    rcases h.current (hknown i hi) with hbase | hstamp
    · obtain ⟨text, ht⟩ := Option.isSome_iff_exists.1 hbase
      exact hsnap ht ▸ h.textOf_snapshot hl ht
    · obtain ⟨l', hl', hst⟩ := h.sel hc
      cases hcl.symm.trans hl'
      exact hlife hcl (hst.trans (hstamp m hm).symm)

/-- One step of a hook. -/
theorem Inv.micro (h : Inv ids s) (hl : s.life = some l) {hk : Hook} {m : Micro} {todo : List Micro}
    {stack : List (Hook × List Micro)} {converts : Bool}
    (hstack : s.stack = (hk, m :: todo) :: stack)
    (hclear : m.Clear s l converts)
    (hs : ({ s with stack := (hk, todo) :: stack }).micro l converts m = some s') : Inv ids s' := by
  have htop : Announced s.trace.nameTable (m :: todo) :=
    h.order (x := (hk, m :: todo)) (hstack ▸ .head _)
  have hrest : ∀ {x}, x ∈ stack → Announced s.trace.nameTable x.2 :=
    fun hx => h.order (hstack ▸ List.mem_cons_of_mem _ hx)
  cases m with
  | deliver e =>
    cases hs
    obtain ⟨hknown, he, htodo⟩ := htop
    have hpop : Inv ids { s with stack := (hk, todo) :: stack } := by
      refine h.quiet rfl fun {x} hx => ?_
      rcases List.mem_cons.1 hx with rfl | hx
      · exact htodo
      · exact hrest hx
    exact hpop.deliver hl he hknown
  | ensure a =>
    simp only [Reactor.micro] at hs
    split at hs
    · next hseen =>
      cases hs
      have ha : a ∈ s.trace.nameTable := List.contains_iff_mem.1 hseen
      refine h.quiet rfl fun {x} hx => ?_
      rcases List.mem_cons.1 hx with rfl | hx
      · exact Announced.mono htop (List.append_subset.2
          ⟨List.Subset.refl _, List.cons_subset.2 ⟨ha, List.nil_subset _⟩⟩)
      · exact hrest hx
    · next hseen =>
      obtain ⟨text, htext, rfl⟩ := Option.map_eq_some_iff.1 hs
      rcases hclear with hyes | ⟨hroom, rfl, hfit⟩
      · exact absurd hyes hseen
      have hnew : a ∉ s.trace.nameTable := fun ha => hseen (List.contains_iff_mem.2 ha)
      have hann := h.announce hl hnew htext
      have hname : ensureName s.trace a (some text) =
          ({ s.trace with nameTable := s.trace.nameTable ++ [a] }, some (.name a text)) := by
        rw [ensureName, if_neg hseen, emitName, nameRemember, if_neg (Nat.not_le.2 hroom),
          Option.map_some, clipName_eq_self (hfit text htext)]
      simp only [if_true, hname]
      refine hann.quiet rfl fun {x} hx => ?_
      rcases List.mem_cons.1 hx with rfl | hx
      · exact htop
      · exact (hrest hx).mono (List.subset_append_left ..)

/-- A reset. -/
theorem Inv.reset (h : Inv ids s) (hclear : s.cur = none ∨ s.Settled) : Inv ids s.reset := by
  obtain ⟨htrace, hstack, hstream⟩ := s.reset_kept
  refine h.follows h.toLives.reset (by rw [htrace]) hstack hstream (hclear.imp_left fun hc => ?_)
  simp only [Reactor.reset, hc]

/-- The stream gets a mark. -/
theorem Inv.mark (h : Inv ids s) (e : Entry) : Inv ids { s with stream := .start e :: s.stream } :=
  { h with listed := nofun }

/-- The start of a run. -/
theorem Inv.call (h : Inv ids s) (hstack : s.stack = []) (e : Entry)
    (hclear : Act.Clear s (.call e)) : Inv ids (s.call e) := by
  cases e with
  | run =>
    have := (h.reset hclear).mark .run
    rwa [s.reset_kept.2.2] at this
  | runModule =>
    obtain ⟨-, hst, hstream⟩ := s.reset_kept
    have honce : AnnouncedOnce s.reset.stream := hstream.symm ▸ h.once
    have hres : Resolves s.reset.stream := hstream.symm ▸ h.resolves
    exact { h.toLives.reset.1 with
      names := nofun
      current := nofun
      order := fun {x} hx => absurd (hstack ▸ hst ▸ (hx : x ∈ s.reset.stack)) List.not_mem_nil
      listed := nofun
      once := honce
      resolves := hres }
  | requestEval => exact h.mark .requestEval
  | requestPump => exact h.mark .requestPump

theorem Inv.step (h : Inv ids s) {a : Act} (hclear : a.Clear s) (hs : s.exec a = some s') :
    Inv ids s' := by
  cases a with
  | setTraceMode mode =>
    cases hs
    exact h.quiet rfl h.order
  | newRequest k =>
    obtain ⟨hk, ⟨⟩⟩ := Option.ite_none_left_eq_some.1 hs
    refine h.follows (h.born k s.last fun {j} hj => ?_) rfl rfl rfl (.inl rfl)
    obtain ⟨l, hl, hst⟩ := h.sel hj
    refine ⟨l, (update_of_ne ?_ ..).trans hl, hst⟩
    rintro rfl
    exact hk (Option.isSome_of_eq_some hl)
  | enter k =>
    obtain ⟨-, hs⟩ := Option.ite_none_right_eq_some.1 hs
    obtain ⟨l, hl, rfl⟩ := Option.map_eq_some_iff.1 hs
    refine { h with
      sel := ?_
      current := fun {i} hi => ?_ }
    · rintro _ ⟨⟩
      exact ⟨l, hl, rfl⟩
    · rcases hclear with hlast | hset
      · exact (h.current hi).imp id fun hst m hm => (hst m hm).trans (hlast l hl).symm
      · exact .inl (hset i hi)
  | leave =>
    obtain ⟨-, ⟨⟩⟩ := Option.ite_none_right_eq_some.1 hs
    exact { h with sel := nofun }
  | free k =>
    simp only [Reactor.exec] at hs
    split at hs
    · obtain ⟨-, ⟨⟩⟩ := Option.ite_none_right_eq_some.1 hs
      exact h.follows (h.free k none nofun) rfl rfl rfl (.inl rfl)
    · next hne =>
      cases hs
      exact h.follows (h.free k s.cur fun hj => ⟨fun hjk => hne (hjk ▸ hj), hj⟩) rfl rfl
        rfl (.inl rfl)
  | reset =>
    obtain ⟨-, ⟨⟩⟩ := Option.ite_none_right_eq_some.1 hs
    exact h.reset hclear
  | call e =>
    obtain ⟨hstack, ⟨⟩⟩ := Option.ite_none_right_eq_some.1 hs
    exact h.call hstack e hclear
  | atoms op =>
    obtain ⟨l, hl, hs⟩ := Option.bind_eq_some_iff.1 hs
    obtain ⟨hop, hs⟩ := Option.ite_none_left_eq_some.1 hs
    obtain ⟨⟨i, rt'⟩, hr, rfl⟩ := Option.map_eq_some_iff.1 hs
    obtain ⟨c, -, hcl⟩ := Option.bind_eq_some_iff.1 hl
    obtain ⟨ids', hgood⟩ := h.good hcl
    have hsp := hclear l hl
    have hadm := Atoms.admits_sparing
    obtain ⟨hgood', hext⟩ := hgood.exec (hadm.valid hsp) (hadm.texts hsp) (hadm.ready hgood hsp)
      (fun heq => hop (.inl heq)) (hadm.allocs hgood hsp) hr
    exact h.follows (h.putAtoms hl hgood' hext) rfl rfl rfl (.inl rfl)
  | hook hk =>
    obtain ⟨l, hl, rfl⟩ := Option.map_eq_some_iff.1 hs
    split
    · exact h
    · next st hst =>
      obtain ⟨-, -, _, _, rfl⟩ := Hook.start_some hst
      refine h.quiet rfl fun {x} hx => ?_
      rcases List.mem_cons.1 hx with rfl | hx
      · exact hk.announced _
      · exact h.order hx
  | micro converts =>
    simp only [Reactor.exec] at hs
    split at hs
    · next hk m todo stack hstack =>
      obtain ⟨l, hl, hs⟩ := Option.bind_eq_some_iff.1 hs
      refine h.micro hl hstack ?_ hs
      exact hclear l hl (hk, m :: todo) (by rw [hstack]; rfl) m rfl
    · cases hs
  | finish stop =>
    simp only [Reactor.exec] at hs
    split at hs
    · next hk stack hstack =>
      cases hs
      exact h.quiet Hook.finish_nameTable fun hx => h.order (hstack ▸ List.mem_cons_of_mem _ hx)
    · cases hs

end

/-- **Trace names resolve.** In every run of a reactor whose steps the host can follow, from any
frozen runtime, every event of the stream refers to atoms by their names, and no run announces an
atom twice. -/
theorem names_resolve {rt : Atoms.Runtime} (hrt : Atoms.Reach (fun rt op => op.Sparing rt) rt)
    (harena : rt.isArena = true) {s : Reactor}
    (h : Reach (fun s a => a.Clear s) (Reactor.init rt) s) :
    Resolves s.stream ∧ AnnouncedOnce s.stream := by
  obtain ⟨ids, hgood⟩ := hrt.frozen Atoms.admits_sparing harena
  have hinv : Inv ids s := by
    induction h with
    | init => exact Inv.init hgood harena
    | step _ hclear hs ih => exact ih.step hclear hs
  exact ⟨hinv.resolves, hinv.once⟩

/-- A program whose only function has a name of one character: the name is interned, and the
function entered. The first atom of an overlay is 712 here, and the file is the snapshot's atom
1. -/
def oneFunction (c : Nat) : List Act :=
  [.atoms (.string false [c] none), .atoms (.newAtomStr (.req 0) Atoms.allOk),
    .hook (.funcEnter 712 1 1), .micro true, .micro true, .micro true, .finish false]

/-- Two runs of `arena_run_module_r`; then the request is left and entered again, and the function
is called once more. -/
def twoModules : List Act :=
  .setTraceMode 1 :: .call .runModule :: oneFunction 98 ++ .call .runModule :: oneFunction 99 ++
    [.leave, .enter 0, .call .requestEval, .hook (.funcEnter 712 1 1), .micro true, .micro true,
      .micro true, .finish false]

/-- What of a clear step can be decided: its atom calls intern no string of the snapshot. -/
def Act.Plain (s : Reactor) : Act → Prop
  | .atoms op => ∀ l ∈ s.life, op.Valid (s.runtime l) ∧ (∀ x ∈ op.interns, x.1.isBase = false) ∧
      l.req.overlayBase + (l.req.overlayCount + 1) < tagInt
  | a => a.Clear s

instance (s : Reactor) (l : Life) (converts : Bool) : ∀ m : Micro, Decidable (m.Clear s l converts)
  | .ensure _ => inferInstanceAs (Decidable (_ ∨ _ ∧ _ ∧ _))
  | .deliver _ => inferInstanceAs (Decidable True)

instance (s : Reactor) : ∀ a : Act, Decidable (a.Plain s)
  | .atoms _ => inferInstanceAs (Decidable (∀ l ∈ s.life, _ ∧ _ ∧ _))
  | .micro _ => inferInstanceAs (Decidable (∀ l ∈ s.life, _))
  | .reset | .call .run => inferInstanceAs (Decidable (_ ∨ _))
  | .enter _ => inferInstanceAs (Decidable (_ ∨ _))
  | .setTraceMode _ | .newRequest _ | .leave | .free _ | .call .runModule | .call .requestEval
  | .call .requestPump | .hook _ | .finish _ => inferInstanceAs (Decidable True)

theorem Act.Plain.clear {s : Reactor} {a : Act} (h : a.Plain s) : a.Clear s := by
  cases a with
  | atoms op =>
    intro l hl
    obtain ⟨hv, hown, hlow⟩ := h l hl
    refine ⟨hv, fun _ => hlow, fun _ p t s hop _ hb => ?_⟩
    rw [hown (p, t) hop] at hb
    cases hb
  | _ => exact h

/-- A run whose steps are all plain, evaluated. -/
def plainRuns (s : Reactor) : List Act → Option Reactor
  | [] => some s
  | a :: acts => if a.Plain s then (s.exec a).bind fun s => plainRuns s acts else none

theorem Reach.plainRuns {s0 s s' : Reactor} {acts : List Act}
    (h : Reach (fun s a => a.Clear s) s0 s) (hr : plainRuns s acts = some s') :
    Reach (fun s a => a.Clear s) s0 s' := by
  induction acts generalizing s with
  | nil => exact Option.some.inj hr ▸ h
  | cons a acts ih =>
    obtain ⟨hp, hr⟩ := Option.ite_none_right_eq_some.1 hr
    obtain ⟨s1, hs, hr⟩ := Option.bind_eq_some_iff.1 hr
    exact ih (.step h hp.clear hs) hr

/-- Two modules with one function each. The second run names the atom again. -/
theorem names_resolve_twoModules : ∃ rt ∈ Atoms.runOps Atoms.Runtime.initial Atoms.oneAtom,
    ∃ s ∈ (plainRuns (Reactor.init rt) twoModules), s.stream.length = 10 ∧
      Resolves s.stream ∧ AnnouncedOnce s.stream := by
  have hrun : ∃ rt ∈ Atoms.runOps Atoms.Runtime.initial Atoms.oneAtom, rt.isArena = true ∧
      ∃ s ∈ plainRuns (Reactor.init rt) twoModules, s.stream.length = 10 := by decide +kernel
  obtain ⟨rt, hrt, harena, s, hs, hlen⟩ := hrun
  have hreach : Atoms.Reach (fun rt op => op.Sparing rt) rt :=
    Atoms.Reach.runOps (D := fun rt op => op.Valid rt ∧ rt.isArena = false)
      (fun rt op h => h.1.sparing h.2) .refl (by decide +kernel) hrt
  exact ⟨rt, hrt, s, hs, hlen, names_resolve hreach harena (Reach.init.plainRuns hs)⟩

/-- The same two programs by `arena_run_r`. The second function is entered without a name: the last
name of its atom is that of the first. -/
theorem second_run_keeps_name : ∃ rt ∈ Atoms.runOps Atoms.Runtime.initial Atoms.oneAtom,
    rt.isArena = true ∧
    ∃ s ∈ (Reactor.init rt).runs
      (.setTraceMode 1 :: .call .run :: oneFunction 98 ++ .call .run :: oneFunction 99),
    ¬ Resolves s.stream ∧ (lastName 712 s.stream).map (·.1) = some [98] ∧
      ∃ l ∈ s.life, textOf (s.runtime l) 712 = some [99] := by
  decide +kernel

end ArenaJs.Trace
