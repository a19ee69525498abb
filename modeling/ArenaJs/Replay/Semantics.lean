import ArenaJs.Replay.Recording

/-!
# What the replay store answers

A fresh `Module` with a recording is a store of its own: a get returns what the run wrote last, or
the first recorded outcome of the key, and a scan returns the first keys after its cursor of the
rows recorded for its prefix, with the run's writes over them. `kv_semantics` says so for every
sequence of calls whose texts cross into the host unchanged, whose limits are 32-bit numbers and
that writes no empty key: an empty key is before and after the empty cursor. Paging by the last key
returned then lists every key once, and only the order of recorded entries of one key matters.
-/

namespace ArenaJs.Replay

variable (tape : List KvEntry)

/-! ## The store, for itself -/

/-- The write of a call to the key `k`, `none` for a deletion. -/
def KvCall.writes (k : JSString) : KvCall → Option (Option JSString)
  | .set k' v => if k' = k then some (some v) else none
  | .delete k' => if k' = k then some none else none
  | _ => none

/-- What a run of calls wrote last to the key `k`. -/
def lastWrite (calls : List KvCall) (k : JSString) : Option (Option JSString) :=
  calls.reverse.findSome? (KvCall.writes k)

/-- The first entry recorded for a get of `k`. -/
def recordedGet (k : JSString) : Option KvEntry :=
  tape.find? fun e => e.op = 0 ∧ e.key = k

/-- The rows recorded for a scan of `p`. -/
def recordedRows (p : JSString) : List (JSString × JSString) :=
  ((tape.find? fun e => e.op = 3 ∧ e.key = p).bind KvEntry.results).getD []

/-- The answer to a get that a recorded outcome gives. -/
def outcomeAnswer (e : KvEntry) : Answer :=
  if e.outcome = 0 then .string (e.value.getD [])
  else if e.outcome = 1 then .null
  else if e.outcome = 2 then .error (.internalError "kv.get: recorded failure")
  else .string []

/-- The answer to a get. -/
def storeGet (before : List KvCall) (k : JSString) : Answer :=
  match lastWrite before k with
  | some (some v) => .string v
  | some none => .null
  | none =>
    match recordedGet tape k with
    | some e => outcomeAnswer e
    | none => .error (throwInputError "kv" (-4))

/-- The map that a scan of `p` reads: the recorded rows, with the run's writes under `p` over
them. -/
def storeMap (before : List KvCall) (p k : JSString) : Option JSString :=
  (if p.isPrefixOf k then lastWrite before k else none).getD
    ((Dict.empty.setAll (recordedRows tape p)).get k)

/-- A recording whose scans succeeded, one for each prefix, with rows under it and ASCII keys. -/
structure Recorded (tape : List KvEntry) : Prop where
  scans : ((tape.filter fun e => e.op = 3).map KvEntry.key).Nodup
  outcome : ∀ e ∈ tape, e.op = 3 → e.outcome = 0
  rows : ∀ e ∈ tape, e.op = 3 → ∀ x ∈ e.results.getD [],
    e.key.isPrefixOf x.1 ∧ Ascii x.1 ∧ x.1 ≠ []

/-- The texts of a call and its limit cross into the host unchanged; no empty key is written. -/
def KvCall.Clean : KvCall → Prop
  | .get k | .delete k => Replay.Plain k
  | .set k v => Replay.Plain k ∧ k ≠ [] ∧ Replay.Plain v
  | .scan p c l => Replay.Plain p ∧ Replay.Plain c ∧ -2 ^ 31 ≤ l ∧ l < 2 ^ 31

/-- The recorded values are well formed. -/
def ValuesWellFormed : Prop :=
  ∀ e ∈ tape, e.op = 0 → wellFormed (e.value.getD []) = true

/-- The `Module` after a run of calls. -/
def Module.after (M : Module) (calls : List KvCall) : Module :=
  calls.foldl (fun M c => (M.ask c.query).2) M

/-- Up to `n` pages of a scan of `p`, each from the last key of the one before. -/
def Module.pageThrough (p : JSString) (limit : Int) : Nat → Module → JSString →
    List (JSString × JSString)
  | 0, _, _ => []
  | n + 1, M, cursor =>
    match M.ask (.scan p cursor limit) with
    | (.rows rows, M) => rows ++ match rows.getLast? with
      | none => []
      | some e => Module.pageThrough p limit n M e.1
    | _ => []

/-! ## The view after a run -/

section
variable {tape : List KvEntry} {calls : List KvCall} {v : View} {p c k : JSString} {l : Int}

theorem lastWrite_concat (calls : List KvCall) (c : KvCall) (k : JSString) :
    lastWrite (calls ++ [c]) k = (c.writes k).or (lastWrite calls k) := by
  rw [lastWrite, List.reverse_append, List.reverse_singleton, List.singleton_append,
    List.findSome?_cons]
  cases c.writes k <;> rfl

theorem mem_of_find_op {o : Nat} {e : KvEntry}
    (h : tape.find? (fun e => e.op = o ∧ e.key = k) = some e) :
    e ∈ tape ∧ e.op = o ∧ e.key = k := by
  have hp := List.find?_some h
  simp only [decide_eq_true_eq] at hp
  exact ⟨List.mem_of_find?_eq_some h, hp⟩

/-- A value that was written last was set by a call. -/
theorem set_of_lastWrite {w : JSString} (hcalls : ∀ c ∈ calls, c.Clean)
    (h : lastWrite calls k = some (some w)) : Plain k ∧ k ≠ [] ∧ Plain w := by
  obtain ⟨c, hc, hw⟩ := List.exists_of_findSome?_eq_some h
  have hclean := hcalls c (List.mem_reverse.mp hc)
  cases c with
  | set k' w' =>
    rw [KvCall.writes] at hw
    split at hw
    · next hk =>
      cases Option.some.inj hw
      exact hk ▸ hclean
    · cases hw
  | delete k' =>
    rw [KvCall.writes] at hw
    split at hw <;> cases hw
  | get _ | scan _ _ _ => cases hw

/-- The view of a `Module` that has the recording and has made the calls. -/
structure Shows (tape : List KvEntry) (calls : List KvCall) (v : View) : Prop where
  index : v.index = indexInputs (some { kv := some tape })
  overlay : ∀ k, v.overlay.get k = lastWrite calls k

theorem Shows.step (h : Shows tape calls v) {c : KvCall} (hc : c.Clean) :
    Shows tape (calls ++ [c]) (v.write c.query) where
  index := by cases c <;> exact h.index
  overlay k := by
    rw [lastWrite_concat, ← h.overlay]
    cases c with
    | set k' w =>
      simp only [KvCall.query, View.write, hc.1.decode, hc.2.2.decode, Dict.get_set, KvCall.writes,
        eq_comm (a := k)]
      split <;> rfl
    | delete k' =>
      simp only [KvCall.query, View.write, Plain.decode hc, Dict.get_set, KvCall.writes,
        eq_comm (a := k)]
      split <;> rfl
    | get _ | scan _ _ _ => rfl

theorem Shows.after (tape : List KvEntry) (hcalls : ∀ c ∈ calls, c.Clean) :
    Shows tape calls ((freshModule tape).after calls).view := by
  induction calls using List.reverseRecOn with
  | nil => exact ⟨rfl, fun _ => rfl⟩
  | append_singleton calls c ih =>
    rw [Module.after, List.foldl_append]
    refine (((freshModule tape).after calls).ask_spec c.query).2 ▸ ?_
    exact (ih fun d hd => hcalls d (List.mem_append_left _ hd)).step (hcalls c (by simp))

theorem Shows.get (h : Shows tape calls v) (hv : ValuesWellFormed tape)
    (hw : ∀ w, lastWrite calls k = some (some w) → Plain w) (hk : Plain k) :
    v.answer (.get k) = storeGet tape calls k := by
  simp only [View.answer, View.kvGet, storeGet, hk.decode, h.overlay]
  cases hl : lastWrite calls k with
  | some o =>
    cases o with
    | none => rfl
    | some w => simp [encode_eq_self (hw w hl).1]
  | none =>
    simp only [h.index, indexInputs, Option.bind_some, Option.getD_some, get_indexKv, recordedGet]
    cases he : tape.find? fun e => e.op = 0 ∧ e.key = k with
    | none => rfl
    | some e =>
      obtain ⟨hmem, hop, -⟩ := mem_of_find_op he
      simp [outcomeAnswer, encode_eq_self (hv e hmem hop)]

/-- The rows a scan selects from. -/
theorem Shows.get_merged (h : Shows tape calls v) :
    (v.merged p).get k = storeMap tape calls p k := by
  rw [View.merged, get_mergeRows, h.overlay, storeMap, h.index]
  simp [indexInputs, get_indexKv, recordedRows]

theorem Shows.scan (h : Shows tape calls v) (ht : Recorded tape) (hp : Plain p) (hc : Plain c)
    (hl : -2 ^ 31 ≤ l ∧ l < 2 ^ 31) :
    v.answer (.scan p c l) =
      .rows ((v.merged p).page (· ≤ ·) (afterCursor c) (pageCap l)) := by
  simp only [View.answer, View.kvPrefix, hp.decode, hc.decode, toInt32_eq_self hl]
  have hnone : (v.index.kvPrefix.get p).filter (fun e => e.outcome ≠ 0) = none := by
    rw [h.index]
    simp only [indexInputs, Option.bind_some, Option.getD_some, get_indexKv]
    cases he : tape.find? fun e => e.op = 3 ∧ e.key = p with
    | none => rfl
    | some e =>
      obtain ⟨hmem, hop, -⟩ := mem_of_find_op he
      exact Option.filter_some_neg (by simp [ht.outcome e hmem hop])
  rw [hnone]

/-- A key of a scan is a text that crosses unchanged, and not empty. -/
theorem storeMap_key (ht : Recorded tape) (hcalls : ∀ c ∈ calls, c.Clean)
    (hk : (storeMap tape calls p k).isSome) : Plain k ∧ k ≠ [] := by
  have hrow : ((Dict.empty.setAll (recordedRows tape p)).get k).isSome → Plain k ∧
    k ≠ [] := fun h => by
    obtain ⟨x, hx, rfl⟩ := List.mem_map.mp ((Dict.mem_of_get_setAll h).resolve_right (by simp))
    rw [recordedRows] at hx
    cases he : tape.find? fun e => e.op = 3 ∧ e.key = p with
    | none =>
      rw [he] at hx
      cases hx
    | some e =>
      obtain ⟨hmem, hop, -⟩ := mem_of_find_op he
      rw [he] at hx
      obtain ⟨-, hascii, hne⟩ := ht.rows e hmem hop x hx
      exact ⟨hascii.plain, hne⟩
  rw [storeMap] at hk
  split at hk
  · cases hl : lastWrite calls k with
    | none => exact hrow (by simpa [hl] using hk)
    | some o =>
      cases o with
      | none => simp [hl] at hk
      | some w =>
        obtain ⟨hp, hne, -⟩ := set_of_lastWrite hcalls hl
        exact ⟨hp, hne⟩
  · exact hrow hk

/-- A page has the first rows of the map. -/
theorem Shows.firstRows (h : Shows tape calls v) (ht : Recorded tape)
    (hcalls : ∀ c ∈ calls, c.Clean)
    (c : JSString) (cap : Nat) :
    Dict.FirstRows (storeMap tape calls p) (c < ·) cap
      ((v.merged p).page (· ≤ ·) (afterCursor c) cap) := by
  have hpage := Dict.page_firstRows (v.merged p) (afterCursor c) cap
  have hget : (v.merged p).get = storeMap tape calls p := funext fun k => h.get_merged
  rw [hget] at hpage
  have hafter : ∀ k, (storeMap tape calls p k).isSome → (afterCursor c k = true ↔ c < k) := by
    intro k hk
    have hne := (storeMap_key ht hcalls hk).2
    cases c with
    | nil =>
      obtain ⟨x, k, rfl⟩ := List.exists_cons_of_ne_nil hne
      simp [afterCursor]
    | cons x c => simp [afterCursor]
  refine ⟨hpage.sorted, fun e he => ?_, hpage.length, fun k hk hlt => ?_⟩
  · obtain ⟨hm, ha⟩ := hpage.sound e he
    exact ⟨hm, (hafter e.1 (by simp [hm])).mp ha⟩
  · exact hpage.first k hk ((hafter k hk).mpr hlt)

end

/-! ## Every run -/

/-- The answer to a call is that of the store. -/
def Answers (before : List KvCall) : KvCall → Answer → Prop
  | .get k, a => a = storeGet tape before k
  | .scan p c l, a => ∃ rows, a = .rows rows ∧
      Dict.FirstRows (storeMap tape before p) (c < ·) (if 0 < l then min l.toNat 1000 else 100) rows
  | _, a => a = .undefined

/-- Paging through a scan gives the pages of the map. -/
theorem Shows.pageThrough {tape : List KvEntry} {calls : List KvCall} {v : View} {p : JSString}
    (h : Shows tape calls v) (ht : Recorded tape) (hcalls : ∀ c ∈ calls, c.Clean) (hp : Plain p)
    {l : Int} (hl : -2 ^ 31 ≤ l ∧ l < 2 ^ 31) {n : Nat} {M : Module} (hM : M.view = v)
    {c : JSString}
    (hc : Plain c) :
    M.pageThrough p l n c =
      Dict.pages (fun c => (v.merged p).page (· ≤ ·) (afterCursor c) (pageCap l)) n c := by
  induction n generalizing M c with
  | zero => rfl
  | succ n ih =>
    obtain ⟨hans, hview⟩ := M.ask_spec (.scan p c l)
    rw [hM, h.scan ht hp hc hl] at hans
    rw [hM] at hview
    have hask : M.ask (.scan p c l) = (_, _) := Prod.ext hans rfl
    rw [Module.pageThrough, Dict.pages, hask]
    refine congrArg (_ ++ ·) ?_
    cases hlast : ((v.merged p).page (· ≤ ·) (afterCursor c) (pageCap l)).getLast? with
    | none => rfl
    | some e =>
      have hkey := ((h.firstRows ht hcalls c (pageCap l)).sound e (List.mem_of_getLast? hlast)).1
      have hsome : (storeMap tape calls p e.1).isSome := by rw [hkey]; rfl
      exact ih hview (storeMap_key ht hcalls hsome).1

/-- Two views that answer alike. -/
structure Alike (v v' : View) : Prop where
  sources : v'.sources = v.sources
  overlay : v'.overlay = v.overlay
  kvGet : ∀ k, v'.index.kvGet.get k = v.index.kvGet.get k
  kvPrefix : ∀ k, v'.index.kvPrefix.get k = v.index.kvPrefix.get k
  mods : ∀ k, v'.index.mods.get k = v.index.mods.get k

theorem Alike.answers {M M' : Module} (h : Alike M.view M'.view) (calls : List KvCall) :
    M'.answers calls = M.answers calls := by
  induction calls generalizing M M' with
  | nil => rfl
  | cons c calls ih =>
    obtain ⟨ha, hv⟩ := M.ask_spec c.query
    obtain ⟨ha', hv'⟩ := M'.ask_spec c.query
    rw [Module.answers, Module.answers, ha, ha']
    refine congrArg₂ _ ?_ (ih ?_)
    · cases c <;> simp [KvCall.query, View.answer, View.kvGet, View.kvPrefix, View.merged,
        h.overlay, h.kvGet, h.kvPrefix]
    · rw [hv, hv']
      have hover : (M'.view.write c.query).overlay = (M.view.write c.query).overlay := by
        cases c <;> simp [KvCall.query, View.write, h.overlay]
      exact ⟨by cases c <;> exact h.sources, hover, by cases c <;> exact h.kvGet,
        by cases c <;> exact h.kvPrefix, by cases c <;> exact h.mods⟩

/-- Only the order of the entries of one key matters. -/
theorem Alike.reordered {tape tape' : List KvEntry}
    (h : ∀ k, tape'.filter (fun e => e.key = k) = tape.filter fun e => e.key = k) :
    Alike (freshModule tape).view (freshModule tape').view := by
  have hfind : ∀ o k, (indexKv o tape').get k = (indexKv o tape).get k := fun o k => by
    have hsplit : ∀ l : List KvEntry, (indexKv o l).get k =
        (l.filter fun e => e.key = k).find? fun e => e.op = o := fun l => by
      rw [get_indexKv, List.find?_filter]
      simp [Bool.and_comm]
    rw [hsplit, hsplit, h]
  exact ⟨rfl, rfl, hfind 0, hfind 3, fun _ => rfl⟩

/-- **The replay store.** After any run of clean calls, every clean call is answered as the store
answers it; paging through a scan lists the entries of its map once each, in order; and recordings
whose entries of one key are in the same order give the same answers to all calls. -/
theorem kv_semantics (tape : List KvEntry) (ht : Recorded tape) (hv : ValuesWellFormed tape)
    (before : List KvCall) (hb : ∀ c ∈ before, c.Clean) :
    (∀ c : KvCall, c.Clean →
      Answers tape before c (((freshModule tape).after before).ask c.query).1) ∧
    (∀ p l, Plain p → (-2 ^ 31 ≤ l ∧ l < 2 ^ 31) → ∃ N, ∀ n ≥ N,
      ((((freshModule tape).after before).pageThrough p l n []).map Prod.fst).Pairwise (· < ·) ∧
      ∀ k w, (k, w) ∈ ((freshModule tape).after before).pageThrough p l n [] ↔
        storeMap tape before p k = some w) ∧
    ∀ tape', (∀ k, tape'.filter (fun e => e.key = k) = tape.filter fun e => e.key = k) →
      ∀ calls, (freshModule tape').answers calls = (freshModule tape).answers calls := by
  have hs := Shows.after tape hb
  refine ⟨fun c hc => ?_, fun p l hp hl => ?_, fun tape' h => (Alike.reordered h).answers⟩
  · rw [(Module.ask_spec _ _).1]
    cases c with
    | get k => exact hs.get hv (fun w hw => (set_of_lastWrite hb hw).2.2) hc
    | set k w => rfl
    | delete k => rfl
    | scan p c l => exact ⟨_, hs.scan ht hc.1 hc.2.1 hc.2.2, hs.firstRows ht hb c _⟩
  · have hcap : 0 < pageCap l := by
      unfold pageCap
      split <;> omega
    generalize hM : (freshModule tape).after before = M at hs ⊢
    refine ⟨(M.view.merged p).keys.toFinset.card + 1, fun n hn => ?_⟩
    rw [hs.pageThrough ht hb hp hl rfl (by decide)]
    have hfirst : ∀ c, Plain c → Dict.FirstRows (storeMap tape before p) (c < ·) (pageCap l) _ :=
      fun c _ => hs.firstRows ht hb c (pageCap l)
    obtain ⟨hsorted, hmem⟩ := Dict.pages_spec hcap hfirst (fun k hk => (storeMap_key ht hb hk).1) []
      (by decide) (fun k hk _ => List.mem_toFinset.mpr (Dict.mem_keys.mpr (hs.get_merged ▸ hk))) hn
    refine ⟨hsorted, fun k w => (hmem (k, w)).trans ⟨And.left, fun hk => ⟨hk, ?_⟩⟩⟩
    have hne : k ≠ [] := (storeMap_key (p := p) ht hb (by simp [hk])).2
    obtain ⟨x, k, rfl⟩ := List.exists_cons_of_ne_nil hne
    exact List.nil_lt_cons x k

/-- A scan of `a` with one row, and a get that found nothing. -/
def smallTape : List KvEntry :=
  [scanEntry [97] [] 10 [([97, 98], [49])], getEntry [98] none]

/-- A run on it reads its own write. -/
theorem kv_semantics_small :
    (((freshModule smallTape).after [.set [97, 99] [50]]).ask (.get [97, 99])).1 = .string [50] :=
  (kv_semantics smallTape
    ⟨by decide, by decide, by decide⟩ (by unfold ValuesWellFormed; decide) [.set [97, 99] [50]]
    fun c hc => by
      obtain rfl := List.mem_singleton.mp hc
      exact ⟨by decide, by decide, by decide⟩).1 (.get [97, 99]) (show Plain [97, 99] by decide)

/-- A byte order mark is lost between a set and a get, a page that ends with the empty key is
followed by itself, and a limit of `2 ^ 32 + 1` is one of 1. -/
theorem kv_loses_bom :
    (freshModule []).answers [.set [97] [0xFEFF, 98], .get [97]] = [.undefined, .string [98]] ∧
    (freshModule []).answers [.set [] [49], .set [97] [50], .scan [] [] 1, .scan [] [] 1] =
      [.undefined, .undefined, .rows [([], [49])], .rows [([], [49])]] ∧
    (freshModule []).answers [.set [97] [49], .set [98] [50], .scan [] [] (2 ^ 32 + 1)] =
      [.undefined, .undefined, .rows [([97], [49])]] := by
  decide +kernel

end ArenaJs.Replay
