import ArenaJs.Replay.Bindings

/-!
# Recording a run and replaying it

`Live` is the store that a run is recorded against: a map from keys to values, of which a scan
returns the first keys under a prefix and after a cursor in the order of their UTF-8 bytes. The
recording takes down every get of a key that the run has not written and every scan with the rows it
returned.

A replay puts every page of one prefix together from the rows of the first scan recorded for that
prefix and the run's own writes. It gives the answers of the recorded run exactly when every key on
every page was on that first page or had been written by the run (`replay_run_iff_covered`).
-/

namespace ArenaJs.Replay

/-! ## The recorded store -/

/-- The code points of a string; their order is the order of the UTF-8 bytes. -/
def codePoints : JSString → List Nat
  | [] => []
  | [c] => [c]
  | c :: d :: s =>
    if isHiSurrogate c && isLoSurrogate d then
      (0x10000 + (c - 0xD800) * 0x400 + (d - 0xDC00)) :: codePoints s
    else c :: codePoints (d :: s)

theorem Ascii.codePoints {s : JSString} (h : Ascii s) : codePoints s = s := by
  fun_induction Replay.codePoints s with
  | case1 => rfl
  | case2 c => rfl
  | case3 c d s hp ih =>
    have := h c List.mem_cons_self
    simp [isHiSurrogate] at hp
    omega
  | case4 c d s hp ih => rw [ih fun x hx => h x (List.mem_cons_of_mem _ hx)]

/-- The order of the store's keys. -/
def storeLe (a b : JSString) : Prop := codePoints a ≤ codePoints b

instance : DecidableRel storeLe := fun a b =>
  inferInstanceAs (Decidable (codePoints a ≤ codePoints b))

/-- Strictly after the cursor; the empty cursor is before every key. -/
def storeAfter (cursor k : JSString) : Bool :=
  cursor.isEmpty || decide (codePoints cursor < codePoints k)

/-- A call of the `kv` namespace. -/
inductive KvCall where
  | get (key : JSString)
  | set (key val : JSString)
  | delete (key : JSString)
  | scan (pre cursor : JSString) (limit : Int)
  deriving DecidableEq

/-- The call as the bindings see it. -/
def KvCall.query : KvCall → Query
  | .get k => .get k
  | .set k v => .set k v
  | .delete k => .delete k
  | .scan p c l => .scan p c l

/-- The entry recorded for a get that found `v`. -/
def getEntry (k : JSString) (v : Option JSString) : KvEntry where
  op := 0
  key := k
  outcome := if v.isSome then 0 else 1
  value := v

/-- The entry recorded for a scan that returned `rows`. -/
def scanEntry (p c : JSString) (l : Int) (rows : List (JSString × JSString)) : KvEntry where
  op := 3
  key := p
  cursor := c
  limit := toInt32 l
  outcome := 0
  results := some rows

/-- A run on the recorded store: the store, the keys written so far, the recording so far. -/
structure Live where
  store : Dict JSString JSString
  written : List JSString := []
  tape : List KvEntry := []

namespace Live

/-- The keys a scan ranges over. -/
def selects (p c k : JSString) : Bool := p.isPrefixOf k && storeAfter c k

/-- The keys of a page. -/
def pageKeys (L : Live) (p c : JSString) (l : Int) : List JSString :=
  L.store.pageKeys storeLe (selects p c) (pageCap (toInt32 l))

/-- The rows of a page. -/
def page (L : Live) (p c : JSString) (l : Int) : List (JSString × JSString) :=
  L.store.page storeLe (selects p c) (pageCap (toInt32 l))

/-- One call on the store, with what is recorded of it. -/
def step (L : Live) : KvCall → Answer × Live
  | .get k =>
    (match L.store.get k with
      | none => .null
      | some v => .string v,
     if k ∈ L.written then L else { L with tape := L.tape ++ [getEntry k (L.store.get k)] })
  | .set k v => (.undefined, { L with store := L.store.set k v, written := k :: L.written })
  | .delete k => (.undefined, { L with store := L.store.delete k, written := k :: L.written })
  | .scan p c l =>
    (.rows (L.page p c l), { L with tape := L.tape ++ [scanEntry p c l (L.page p c l)] })

/-- The answers of a sequence of calls. -/
def answers (L : Live) : List KvCall → List Answer
  | [] => []
  | c :: cs => (L.step c).1 :: (L.step c).2.answers cs

/-- The recording of a sequence of calls. -/
def recording (L : Live) : List KvCall → List KvEntry
  | [] => L.tape
  | c :: cs => (L.step c).2.recording cs

/-- The first scan recorded for a prefix. -/
def firstScan (L : Live) (p : JSString) : Option KvEntry :=
  L.tape.find? fun e => e.op = 3 ∧ e.key = p

/-- Every key on the page was written by the run or is on the first page recorded for its prefix. -/
def Covers (L : Live) (p c : JSString) (l : Int) : Prop :=
  ∀ e, L.firstScan p = some e →
    ∀ k ∈ L.pageKeys p c l, k ∈ L.written ∨ k ∈ (e.results.getD []).map Prod.fst

instance (L : Live) (p c : JSString) (l : Int) : Decidable (L.Covers p c l) :=
  match h : L.firstScan p with
  | none => .isTrue fun e he => by rw [h] at he; cases he
  | some e =>
    decidable_of_iff
      (∀ k ∈ L.pageKeys p c l, k ∈ L.written ∨ k ∈ (e.results.getD []).map Prod.fst)
      ⟨fun hc e' he => by rw [h] at he; cases he; exact hc, fun hc => hc e h⟩

/-- The state is one in which the call is replayed: for a scan, one that covers it. -/
def Allows (L : Live) : KvCall → Prop
  | .scan p c l => L.Covers p c l
  | _ => True

instance (L : Live) (c : KvCall) : Decidable (L.Allows c) :=
  match c with
  | .scan p c l => inferInstanceAs (Decidable (L.Covers p c l))
  | .get _ | .set _ _ | .delete _ => .isTrue trivial

/-- Every scan of the run is covered when it is made. -/
def ScansCovered (L : Live) : List KvCall → Prop
  | [] => True
  | c :: cs => L.Allows c ∧ (L.step c).2.ScansCovered cs

instance ScansCovered.decidable (L : Live) : (cs : List KvCall) → Decidable (L.ScansCovered cs)
  | [] => .isTrue trivial
  | c :: cs =>
    have := ScansCovered.decidable (L.step c).2 cs
    inferInstanceAs (Decidable (_ ∧ _))

end Live

/-- The texts of a call that cross into the host and back unchanged, with ASCII where the two sides
compare keys. -/
def KvCall.Plain : KvCall → Prop
  | .get k | .delete k => Replay.Plain k
  | .set k v => Ascii k ∧ Replay.Plain v
  | .scan p c _ => Replay.Plain p ∧ Ascii c

instance : DecidablePred KvCall.Plain
  | .get k | .delete k => inferInstanceAs (Decidable (Replay.Plain k))
  | .set k v => inferInstanceAs (Decidable (Ascii k ∧ Replay.Plain v))
  | .scan p c _ => inferInstanceAs (Decidable (Replay.Plain p ∧ Ascii c))

/-! ## The index and the merged rows -/

theorem get_setNew {ν : Type} (d : Dict JSString ν) (k x : JSString) (v : ν) :
    (setNew d k v).get x = (d.get x).or (if k = x then some v else none) := by
  unfold setNew Dict.has
  by_cases hd : (d.get k).isSome
  · rw [if_pos hd]
    by_cases hx : k = x
    · subst hx
      obtain ⟨w, hw⟩ := Option.isSome_iff_exists.mp hd
      simp [hw]
    · simp [hx]
  · rw [if_neg hd, Dict.get_set]
    by_cases hx : k = x
    · subst hx
      simp [Option.not_isSome_iff_eq_none.mp hd]
    · simp [hx, Ne.symm hx]

/-- The index has the first entry of each key. -/
theorem get_indexKv (op : Nat) (l : List KvEntry) (k : JSString) :
    (indexKv op l).get k = l.find? fun e => e.op = op ∧ e.key = k := by
  suffices h : ∀ d : Dict JSString KvEntry,
      (l.foldl (fun d e => if e.op = op then setNew d e.key e else d) d).get k =
        (d.get k).or (l.find? fun e => e.op = op ∧ e.key = k) from h _
  induction l with
  | nil => intro d; simp
  | cons e l ih =>
    intro d
    rw [List.foldl_cons, ih]
    by_cases ho : e.op = op
    · rw [if_pos ho, get_setNew, Option.or_assoc]
      by_cases hk : e.key = k <;> simp [ho, hk]
    · simp [ho]

theorem get_mergeEntry (p k : JSString) (d : Dict JSString JSString)
    (e : JSString × Option JSString) :
    (mergeEntry p d e).get k = if p.isPrefixOf k ∧ k = e.1 then e.2 else d.get k := by
  unfold mergeEntry
  by_cases hk : k = e.1
  · subst hk
    by_cases hp : p.isPrefixOf e.1
    · cases hv : e.2 <;> simp [hp, Dict.get_delete, Dict.get_set]
    · simp [hp]
  · by_cases hp : p.isPrefixOf e.1
    · cases hv : e.2 <;> simp [hp, hk, Dict.get_delete, Dict.get_set]
    · simp [hp, hk]

/-- What a merge holds: under the prefix the overlay's entries, and the recorded rows elsewhere. -/
theorem get_mergeRows (recorded : List (JSString × JSString)) (overlay : Overlay) (p k : JSString) :
    (mergeRows recorded overlay p).get k =
      (if p.isPrefixOf k then overlay.get k else none).getD
      ((Dict.empty.setAll recorded).get k) := by
  have h : ∀ (l : List (JSString × Option JSString)), (l.map Prod.fst).Nodup →
      ∀ d : Dict JSString JSString, (l.foldl (mergeEntry p) d).get k =
        (if p.isPrefixOf k then (l.find? fun e => e.1 = k).map Prod.snd else none).getD
          (d.get k) := by
    intro l
    induction l with
    | nil => intro _ d; simp
    | cons e l ih =>
      intro hl d
      obtain ⟨he, hl⟩ := List.nodup_cons.mp hl
      rw [List.foldl_cons, ih hl, get_mergeEntry]
      by_cases hk : k = e.1
      · subst hk
        have hn : l.find? (fun x => x.1 = e.1) = none := by
          simp only [List.find?_eq_none, decide_eq_true_eq]
          exact fun x hx hxk => he (List.mem_map.mpr ⟨x, hx, hxk⟩)
        by_cases hp : p.isPrefixOf e.1 <;> simp [hp, hn]
      · have hk' : ¬ e.1 = k := fun h => hk h.symm
        simp [hk, hk']
  rw [mergeRows, h _ overlay.nodup]
  rfl

/-! ## A run and its replay, call by call -/

/-- An entry of the recording, against the map the run began with: a get found what is there, and a
scan returned rows under its prefix that the run has written or that are there. -/
structure EntryOk (init : Dict JSString JSString) (written : List JSString) (e : KvEntry) :
    Prop where
  get : e.op = 0 → e = getEntry e.key (init.get e.key)
  scan : e.op = 3 → e.outcome = 0
  nodup : ((e.results.getD []).map Prod.fst).Nodup
  rows : ∀ x ∈ e.results.getD [],
    e.key.isPrefixOf x.1 ∧ (x.1 ∈ written ∨ init.get x.1 = some x.2)

theorem EntryOk.mono {init : Dict JSString JSString} {w w' : List JSString} {e : KvEntry}
    (h : EntryOk init w e) (hw : ∀ k ∈ w, k ∈ w') : EntryOk init w' e :=
  ⟨h.get, h.scan, h.nodup, fun x hx => ⟨(h.rows x hx).1, (h.rows x hx).2.imp_left (hw _)⟩⟩

/-- The state of a recorded run that began with the map `init`. -/
structure Live.Ok (init : Dict JSString JSString) (L : Live) : Prop where
  keys : ∀ k ∈ L.store.keys, Ascii k
  values : ∀ k v, L.store.get k = some v → wellFormed v = true
  kept : ∀ k, k ∉ L.written → L.store.get k = init.get k
  tape : ∀ e ∈ L.tape, EntryOk init L.written e

/-- The recorded run and the replay's view after the same calls, when `full` is the recording of the
whole run. -/
structure Sync (init : Dict JSString JSString) (full : List KvEntry) (L : Live) (v : View) :
    Prop extends L.Ok init where
  index : v.index = indexInputs (some { kv := some full })
  overlay : ∀ k, v.overlay.get k = if k ∈ L.written then some (L.store.get k) else none

section
variable {init : Dict JSString JSString} {L : Live}

theorem EntryOk.getEntry (init : Dict JSString JSString) (w : List JSString) (k : JSString) :
    EntryOk init w (getEntry k (init.get k)) :=
  ⟨fun _ => rfl, nofun, List.nodup_nil, nofun⟩

/-- A page's entry. -/
theorem Live.Ok.scanEntry (h : L.Ok init) (p c : JSString) (l : Int) :
    EntryOk init L.written (scanEntry p c l (L.page p c l)) where
  get := nofun
  scan := fun _ => rfl
  nodup := by
    show ((L.page p c l).map Prod.fst).Nodup
    rw [Live.page, Dict.map_fst_page]
    exact Dict.nodup_pageKeys _ _ _
  rows := by
    intro x hx
    obtain ⟨hg, hk⟩ := Dict.mem_page (show x ∈ L.page p c l from hx)
    have hs := (Dict.mem_of_mem_pageKeys hk).2
    refine ⟨(Bool.and_eq_true_iff.mp hs).1, ?_⟩
    by_cases hw : x.1 ∈ L.written
    · exact .inl hw
    · exact .inr (h.kept _ hw ▸ hg)

/-- A call keeps the state of a recorded run in order. -/
theorem Live.Ok.step (h : L.Ok init) {c : KvCall} (hc : c.Plain) : (L.step c).2.Ok init := by
  cases c with
  | get k =>
    simp only [Live.step]
    split
    · exact h
    · rename_i hk
      refine ⟨h.keys, h.values, h.kept, fun e he => ?_⟩
      obtain he | he := List.mem_append.mp he
      · exact h.tape e he
      · cases List.mem_singleton.mp he
        rw [h.kept k hk]
        exact EntryOk.getEntry _ _ _
  | set k v =>
    refine ⟨fun x hx => ?_, fun x w hx => ?_, fun x hx => ?_, fun e he => ?_⟩
    · have hx := Dict.mem_keys.mp hx
      simp only [Live.step, Dict.get_set] at hx
      split at hx
      · rename_i hxk
        exact hxk ▸ hc.1
      · exact h.keys x (Dict.mem_keys.mpr hx)
    · simp only [Live.step, Dict.get_set] at hx
      split at hx
      · cases hx
        exact hc.2.1
      · exact h.values x w hx
    · obtain ⟨hxk, hx⟩ := not_or.mp (mt List.mem_cons.mpr hx)
      simp only [Live.step, Dict.get_set, if_neg hxk]
      exact h.kept x hx
    · exact (h.tape e he).mono fun x hx => List.mem_cons_of_mem _ hx
  | delete k =>
    refine ⟨fun x hx => ?_, fun x w hx => ?_, fun x hx => ?_, fun e he => ?_⟩
    · have hx := Dict.mem_keys.mp hx
      simp only [Live.step, Dict.get_delete] at hx
      split at hx
      · cases hx
      · exact h.keys x (Dict.mem_keys.mpr hx)
    · simp only [Live.step, Dict.get_delete] at hx
      split at hx
      · cases hx
      · exact h.values x w hx
    · obtain ⟨hxk, hx⟩ := not_or.mp (mt List.mem_cons.mpr hx)
      simp only [Live.step, Dict.get_delete, if_neg hxk]
      exact h.kept x hx
    · exact (h.tape e he).mono fun x hx => List.mem_cons_of_mem _ hx
  | scan p c l =>
    refine ⟨h.keys, h.values, h.kept, fun e he => ?_⟩
    obtain he | he := List.mem_append.mp he
    · exact h.tape e he
    · cases List.mem_singleton.mp he
      exact h.scanEntry p c l

/-- What a step has recorded is at the front of the recording. -/
theorem Live.tape_isPrefix_recording (L : Live) (cs : List KvCall) : L.tape <+: L.recording cs := by
  induction cs generalizing L with
  | nil => exact List.prefix_rfl
  | cons c cs ih =>
    refine List.IsPrefix.trans ?_ (ih (L.step c).2)
    cases c with
    | get k =>
      simp only [Live.step]
      split
      · exact List.prefix_rfl
      · exact List.prefix_append _ _
    | set k v => exact List.prefix_rfl
    | delete k => exact List.prefix_rfl
    | scan p c l => exact List.prefix_append _ _

variable {full : List KvEntry} {v : View}

/-- Both sides take the same call. -/
theorem Sync.step (h : Sync init full L v) {c : KvCall} (hc : c.Plain) :
    Sync init full (L.step c).2 (v.write c.query) where
  toOk := h.toOk.step hc
  index := by cases c <;> exact h.index
  overlay := by
    cases c with
    | get k =>
      simp only [Live.step]
      split <;> exact h.overlay
    | set k w =>
      intro x
      simp only [Live.step, KvCall.query, View.write, hc.1.plain.decode, hc.2.decode, Dict.get_set,
        h.overlay, List.mem_cons]
      by_cases hx : x = k <;> simp [hx]
    | delete k =>
      intro x
      simp only [Live.step, KvCall.query, View.write, Plain.decode hc, Dict.get_set,
        Dict.get_delete, h.overlay, List.mem_cons]
      by_cases hx : x = k <;> simp [hx]
    | scan p c l => exact h.overlay

/-- The recorded entry that the index has for a call that the run recorded. -/
theorem Sync.find {o : Nat} {k : JSString} {e : KvEntry} (hL : L.Ok init) (hf : L.tape <+: full)
    (he : e ∈ L.tape) (ho : e.op = o) (hk : e.key = k) :
    ∃ e', (indexKv o full).get k = some e' ∧
      L.tape.find? (fun e => e.op = o ∧ e.key = k) = some e' ∧
      e'.op = o ∧ e'.key = k ∧ EntryOk init L.written e' := by
  have hs : (L.tape.find? fun e => e.op = o ∧ e.key = k).isSome :=
    List.find?_isSome.mpr ⟨e, he, by simp [ho, hk]⟩
  obtain ⟨e', he'⟩ := Option.isSome_iff_exists.mp hs
  have hp := List.find?_some he'
  simp only [decide_eq_true_eq] at hp
  exact ⟨e', (get_indexKv o full k).trans (hf.find?_eq_some he'), he', hp.1, hp.2,
    hL.tape e' (List.mem_of_find?_eq_some he')⟩

/-- Every get has its recorded answer. -/
theorem Sync.get_answer (h : Sync init full L v) {k : JSString} (hk : Plain k)
    (hf : (L.step (.get k)).2.tape <+: full) : v.answer (.get k) = (L.step (.get k)).1 := by
  simp only [View.answer, View.kvGet, hk.decode, h.overlay, Live.step]
  by_cases hw : k ∈ L.written
  · rw [if_pos hw]
    cases hs : L.store.get k with
    | none => rfl
    | some s => simp [encode_eq_self (h.values k s hs)]
  · rw [if_neg hw]
    have hL : (L.step (.get k)).2.Ok init := h.toOk.step (c := .get k) hk
    simp only [Live.step, if_neg hw] at hf hL
    obtain ⟨e, hi, -, ho, hkey, he⟩ := Sync.find hL hf (o := 0) (k := k)
      (List.mem_append_right _ (List.mem_singleton_self (getEntry k _))) rfl rfl
    have hg : e = getEntry k (L.store.get k) := by
      rw [h.kept k hw, ← hkey]
      exact he.get ho
    simp only [h.index, indexInputs, Option.bind_some, Option.getD_some, hi, hg]
    cases hs : L.store.get k with
    | none => rfl
    | some s => simp [getEntry, encode_eq_self (h.values k s hs)]

/-- The two sides order the keys of the store alike. -/
theorem Live.Ok.pageKeys_eq (h : L.Ok init) (p c : JSString) (l : Int) :
    L.pageKeys p c l = L.store.pageKeys (· ≤ ·) (Live.selects p c) (pageCap (toInt32 l)) := by
  refine Dict.pageKeys_congr fun a ha b hb => ?_
  rw [storeLe, (h.keys a ha).codePoints, (h.keys b hb).codePoints]

/-- The page of a store, in the replay's order. -/
theorem Live.Ok.page_eq (h : L.Ok init) (p c : JSString) (l : Int) :
    L.page p c l = L.store.page (· ≤ ·) (Live.selects p c) (pageCap (toInt32 l)) := by
  have hk := h.pageKeys_eq p c l
  unfold Live.pageKeys at hk
  rw [Live.page, Dict.page, Dict.page, hk]

/-- A key under the prefix is in the merged rows when the run wrote it or the first page has it. -/
theorem Sync.get_merged (h : Sync init full L v) {p k : JSString} {e : KvEntry}
    (hi : v.index.kvPrefix.get p = some e) (he : EntryOk init L.written e) :
    (v.merged p).get k =
      if p.isPrefixOf k ∧ k ∈ L.written then L.store.get k
      else ((e.results.getD []).find? fun x => x.1 = k).map Prod.snd := by
  rw [View.merged, hi]
  simp only [Option.bind_some]
  rw [get_mergeRows, Dict.get_setAll he.nodup, Dict.get_empty, Option.or_none, h.overlay]
  by_cases hp : p.isPrefixOf k
  · by_cases hw : k ∈ L.written <;> simp [hp, hw]
  · simp [hp]

/-- The merged rows are rows of the store under the prefix. -/
theorem Sync.merged_sub (h : Sync init full L v) {p k w : JSString} {e : KvEntry}
    (hi : v.index.kvPrefix.get p = some e) (he : EntryOk init L.written e) (hk : e.key = p)
    (hg : (v.merged p).get k = some w) : L.store.get k = some w ∧ p.isPrefixOf k := by
  rw [h.get_merged hi he] at hg
  split at hg
  · rename_i hw
    exact ⟨hg, hw.1⟩
  · rename_i hw
    obtain ⟨x, hx, rfl⟩ := Option.map_eq_some_iff.mp hg
    obtain rfl : x.1 = k := by simpa using List.find?_some hx
    obtain ⟨hp, hx⟩ := he.rows x (List.mem_of_find?_eq_some hx)
    rw [hk] at hp
    have hnw : x.1 ∉ L.written := fun hm => hw ⟨hp, hm⟩
    exact ⟨(h.kept _ hnw).trans (hx.resolve_left hnw), hp⟩

/-- A key on the page is in the merged rows when the run wrote it or the first page has it. -/
theorem Sync.merged_isSome (h : Sync init full L v) {p c k : JSString} {l : Int} {e : KvEntry}
    (hi : v.index.kvPrefix.get p = some e) (he : EntryOk init L.written e)
    (hk : k ∈ L.pageKeys p c l) :
    ((v.merged p).get k).isSome ↔ k ∈ L.written ∨ k ∈ (e.results.getD []).map Prod.fst := by
  obtain ⟨hs, hsel⟩ := Dict.mem_of_mem_pageKeys hk
  have hp := (Bool.and_eq_true_iff.mp hsel).1
  rw [h.get_merged hi he]
  by_cases hw : k ∈ L.written
  · simp [hp, hw, hs]
  · simp [hw, List.find?_isSome]

/-- The two sides agree on what is after an ASCII cursor. -/
theorem Live.Ok.storeAfter_eq (h : L.Ok init) {c k w : JSString} (hc : Ascii c)
    (hk : L.store.get k = some w) : storeAfter c k = afterCursor c k := by
  have hk : Ascii k := h.keys k (Dict.mem_keys.mpr (by simp [hk]))
  rw [storeAfter, afterCursor, hc.codePoints, hk.codePoints]

/-- A page is replayed exactly when it is covered. -/
theorem Sync.scan_answer_iff (h : Sync init full L v) {p c : JSString} {l : Int}
    (hc : KvCall.Plain (.scan p c l)) (hf : (L.step (.scan p c l)).2.tape <+: full) :
    v.answer (.scan p c l) = (L.step (.scan p c l)).1 ↔ L.Covers p c l := by
  have hL : (L.step (.scan p c l)).2.Ok init := h.toOk.step (c := .scan p c l) hc
  obtain ⟨e, hi, hfind, ho, hkey, he⟩ := Sync.find hL hf (o := 3) (k := p)
    (List.mem_append_right _ (List.mem_singleton_self (scanEntry p c l _))) rfl rfl
  replace he : EntryOk init L.written e := he
  replace hi : v.index.kvPrefix.get p = some e := by rw [h.index]; exact hi
  have hpage : (v.merged p).page (· ≤ ·) (afterCursor c) (pageCap (toInt32 l)) = L.page p c l ↔
      ∀ k ∈ L.pageKeys p c l, ((v.merged p).get k).isSome := by
    rw [h.toOk.page_eq, h.toOk.pageKeys_eq]
    refine Dict.page_eq_iff (fun k w hg ha => ?_) fun k hg hs => ?_
    · obtain ⟨hg, hp⟩ := h.merged_sub hi he hkey hg
      refine ⟨hg, ?_⟩
      rw [Live.selects, h.toOk.storeAfter_eq hc.2 hg, hp, ha]
      rfl
    · obtain ⟨w, hw⟩ := Option.isSome_iff_exists.mp hg
      rw [← h.toOk.storeAfter_eq hc.2 (h.merged_sub hi he hkey hw).1]
      exact (Bool.and_eq_true_iff.mp hs).2
  have hans : v.answer (.scan p c l) =
      .rows ((v.merged p).page (· ≤ ·) (afterCursor c) (pageCap (toInt32 l))) := by
    simp only [View.answer, View.kvPrefix, hc.1.decode, hc.2.plain.decode, hi]
    rw [Option.filter_some_neg (by simp [he.scan ho])]
  rw [hans, Live.step, Answer.rows.injEq, hpage]
  -- The first scan recorded for the prefix is an earlier one, or this one.
  replace hfind : (L.firstScan p).or (some (scanEntry p c l (L.page p c l))) = some e := by
    rw [← hfind, Live.firstScan, Live.step, List.find?_append]
    simp [scanEntry]
  constructor
  · intro hg e' he' k hk
    rw [he', Option.some_or, Option.some.injEq] at hfind
    subst hfind
    exact (h.merged_isSome hi he hk).mp (hg k hk)
  · intro hcov k hk
    refine (h.merged_isSome hi he hk).mpr ?_
    cases hfirst : L.firstScan p with
    | some e' =>
      rw [hfirst, Option.some_or, Option.some.injEq] at hfind
      subst hfind
      exact hcov _ hfirst k hk
    | none =>
      rw [hfirst, Option.none_or, Option.some.injEq] at hfind
      subst hfind
      refine .inr ?_
      show k ∈ (L.page p c l).map Prod.fst
      rwa [Live.page, Dict.map_fst_page]

end

/-! ## Whole runs -/

/-- The answers of a sequence of calls on a `Module`. -/
def Module.answers (M : Module) : List KvCall → List Answer
  | [] => []
  | c :: cs => (M.ask c.query).1 :: (M.ask c.query).2.answers cs

/-- A fresh `Module` that holds a recording. -/
def freshModule (tape : List KvEntry) : Module := { tapes := some { kv := some tape } }

/-- From synchronised states, the replay answers as the run exactly when its scans are covered. -/
theorem Sync.answers_iff {init : Dict JSString JSString} {L : Live} {M : Module}
    {cs : List KvCall} (h : Sync init (L.recording cs) L M.view) (hcs : ∀ c ∈ cs, c.Plain) :
    M.answers cs = L.answers cs ↔ L.ScansCovered cs := by
  induction cs generalizing L M with
  | nil => exact ⟨fun _ => trivial, fun _ => rfl⟩
  | cons c cs ih =>
    have hc := hcs c List.mem_cons_self
    have hf : (L.step c).2.tape <+: L.recording (c :: cs) :=
      (L.step c).2.tape_isPrefix_recording cs
    obtain ⟨hans, hview⟩ := M.ask_spec c.query
    have hrest := ih (L := (L.step c).2) (M := (M.ask c.query).2)
      (hview ▸ h.step hc) fun d hd => hcs d (List.mem_cons_of_mem _ hd)
    rw [Module.answers, Live.answers, List.cons.injEq, hans, hrest, Live.ScansCovered]
    refine and_congr_left' ?_
    cases c with
    | get k => exact iff_of_true (h.get_answer hc hf) trivial
    | set k v => exact iff_of_true rfl trivial
    | delete k => exact iff_of_true rfl trivial
    | scan p c l => exact h.scan_answer_iff hc hf

/-- A run on a map with ASCII keys and well-formed values, all of whose calls have plain texts, is
reproduced by its recording exactly when all its scans are covered. -/
theorem replay_run_iff_covered (init : Dict JSString JSString) (hkeys : ∀ k ∈ init.keys, Ascii k)
    (hvalues : ∀ e ∈ init.entries, wellFormed e.2 = true) (calls : List KvCall)
    (hplain : ∀ c ∈ calls, c.Plain) :
    (freshModule (Live.recording { store := init } calls)).answers calls =
        Live.answers { store := init } calls ↔
      Live.ScansCovered { store := init } calls := by
  have hok : Live.Ok init { store := init } :=
    ⟨hkeys, fun k v hv => hvalues _ (Dict.mem_entries hv), fun _ _ => rfl, nofun⟩
  exact Sync.answers_iff ⟨hok, rfl, fun _ => rfl⟩ hplain

/-- Two rows, `a` and `b`. -/
def twoRows : Dict JSString JSString := (Dict.empty.set [97] [49]).set [98] [50]

/-- A run that scans everything, writes, and scans again from a cursor and after a deletion is
reproduced. -/
theorem replay_run_reproduced :
    let calls : List KvCall :=
      [.scan [] [] 0, .get [97], .set [99] [51], .scan [] [97] 1, .delete [97], .scan [] [] 0]
    (freshModule (Live.recording { store := twoRows } calls)).answers calls =
      Live.answers { store := twoRows } calls :=
  (replay_run_iff_covered twoRows (by decide) (by decide) _ (by decide)).mpr (by decide +kernel)

/-- A scan paged over two calls of one row each: the replay takes the second page from the rows of
the first and finds none. -/
theorem replay_loses_second_page :
    (∀ k ∈ twoRows.keys, Ascii k) ∧
    let calls : List KvCall := [.scan [] [] 1, .scan [] [97] 1]
    Live.answers { store := twoRows } calls =
      [.rows [([97], [49])], .rows [([98], [50])]] ∧
    (freshModule (Live.recording { store := twoRows } calls)).answers calls =
      [.rows [([97], [49])], .rows []] := by
  decide +kernel

end ArenaJs.Replay
