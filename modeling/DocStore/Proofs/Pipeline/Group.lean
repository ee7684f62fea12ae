import DocStore.Proofs.Expr.Reading
import DocStore.Proofs.Fields
import DocStore.Proofs.Pipeline.Keyed

/-!
# Groups in the order of their first documents

`$group` folds all groups in one pass. What it gathers under a key depends on the documents of that
key only, and a key stands where it first appears. So each row is what the stage gives on the
documents of its key alone, and documents that fail leave no trace but the failure that is recorded:
`GroupStage.tabulates_of_read`.
-/

set_option autoImplicit false

namespace DocStore

/-! ## First appearances -/

section EraseDups

variable {α : Type} [BEq α] [LawfulBEq α] {l : List α}

theorem eraseDups_of_nodup (h : l.Nodup) : l.eraseDups = l := by
  induction l with
  | nil => rfl
  | cons a rest ih =>
      obtain ⟨ha, hrest⟩ := List.nodup_cons.1 h
      have hother : rest.filter (fun b => !b == a) = rest :=
        List.filter_eq_self.2 fun b hb => by simpa using ne_of_mem_of_not_mem hb ha
      rw [List.eraseDups_cons, hother, ih hrest]

theorem eraseDups_eq_singleton {a : α} (hne : l ≠ []) (h : ∀ b ∈ l, b = a) :
    l.eraseDups = [a] := by
  obtain ⟨b, rest, rfl⟩ := List.exists_cons_of_ne_nil hne
  obtain ⟨rfl, hrest⟩ := List.forall_mem_cons.1 h
  have hnone : rest.filter (fun c => !c == b) = [] :=
    List.filter_eq_nil_iff.2 fun c hc => by simpa using hrest c hc
  rw [List.eraseDups_cons, hnone, List.eraseDups_nil]

/-- What has appeared before is not counted again. -/
theorem eraseDups_append_cons_of_mem {a : α} (h : a ∈ l) (rest : List α) :
    (l ++ a :: rest).eraseDups = (l ++ rest).eraseDups := by
  rw [List.eraseDups_append, List.eraseDups_append, List.cons_removeAll,
    if_neg (by simpa using h)]

end EraseDups

namespace GroupStage

/-! ## Gathering -/

/-- A group value with the inputs that are gathered under its key. -/
abbrev Entry := Value × Inputs

/-- The key that an entry is gathered under. -/
def Entry.key (e : Entry) : String := e.1.canonicalKey

/-- The entries of a key. -/
def ofKey (entries : List Entry) (k : String) : List Entry := entries.filter (·.key == k)

variable (accs : Accumulators)

/-- A group, or a new one, with one more entry. -/
def fed (group : Option (Value × List Accumulation)) (e : Entry) : Value × List Accumulation :=
  let (id, states) := group.getD (e.1, accs.start)
  (id, Accumulators.feed states e.2)

/-- Adds entries to groups, one after the other. -/
def gatherAll (groups : Groups) (entries : List Entry) : Groups :=
  entries.foldl (fun groups e => gather accs groups e.1 e.2) groups

theorem get?_gather_self (groups : Groups) (e : Entry) :
    Fields.get? (gather accs groups e.1 e.2) e.key =
      some (fed accs (Fields.get? groups e.key) e) :=
  Fields.get?_insert_self groups _ _

theorem get?_gather_of_ne (groups : Groups) {e : Entry} {k : String} (h : e.key ≠ k) :
    Fields.get? (gather accs groups e.1 e.2) k = Fields.get? groups k :=
  Fields.get?_insert_of_ne groups _ h.symm

/-- **Groups do not mix.** What is gathered under a key is folded from its own entries. -/
theorem get?_gatherAll (groups : Groups) (entries : List Entry) (k : String) :
    Fields.get? (gatherAll accs groups entries) k =
      (ofKey entries k).foldl (fun group e => some (fed accs group e)) (Fields.get? groups k) := by
  induction entries generalizing groups with
  | nil => rfl
  | cons e rest ih =>
      have hrest := ih (gather accs groups e.1 e.2)
      rw [ofKey, List.filter_cons]
      by_cases hk : e.key = k
      · subst hk
        rw [if_pos (beq_self_eq_true _), List.foldl_cons, ← get?_gather_self]
        exact hrest
      · rw [if_neg (by simpa using hk), ← get?_gather_of_ne accs groups hk]
        exact hrest

/-- A group has the id of its first entry, and the inputs of all entries in their order. -/
theorem foldl_fed (entries : List Entry) :
    entries.foldl (fun group e => some (fed accs group e)) none =
      entries.head?.map fun e => (e.1, (entries.map (·.2)).foldl Accumulators.feed accs.start) := by
  have hfold (id : Value) (states : List Accumulation) (rest : List Entry) :
      rest.foldl (fun group e => some (fed accs group e)) (some (id, states)) =
        some (id, (rest.map (·.2)).foldl Accumulators.feed states) := by
    induction rest generalizing states with
    | nil => rfl
    | cons e rest ih => exact ih (Accumulators.feed states e.2)
  cases entries with
  | nil => rfl
  | cons e rest => exact hfold e.1 (Accumulators.feed accs.start e.2) rest

theorem nodup_keys_gatherAll {groups : Groups} (h : (Fields.keys groups).Nodup)
    (entries : List Entry) : (Fields.keys (gatherAll accs groups entries)).Nodup := by
  induction entries generalizing groups with
  | nil => exact h
  | cons e rest ih => exact ih (Fields.nodup_keys_insert h _ _)

/-- **Keys stand where they first appear.** -/
theorem keys_gatherAll {groups : Groups} (h : (Fields.keys groups).Nodup) (entries : List Entry) :
    Fields.keys (gatherAll accs groups entries) =
      (Fields.keys groups ++ entries.map Entry.key).eraseDups := by
  induction entries generalizing groups with
  | nil => rw [List.map_nil, List.append_nil, eraseDups_of_nodup h, gatherAll, List.foldl_nil]
  | cons e rest ih =>
      have hnodup : (Fields.keys (gather accs groups e.1 e.2)).Nodup :=
        Fields.nodup_keys_insert h _ _
      refine (ih hnodup).trans ?_
      rw [List.map_cons]
      by_cases hmem : e.key ∈ Fields.keys groups
      · have hkeys : Fields.keys (gather accs groups e.1 e.2) = Fields.keys groups :=
          Fields.keys_insert_of_mem hmem _
        rw [hkeys, eraseDups_append_cons_of_mem hmem]
      · have hkeys : Fields.keys (gather accs groups e.1 e.2) = Fields.keys groups ++ [e.key] := by
          have hnew := Fields.insert_of_not_mem hmem (fed accs (Fields.get? groups e.key) e)
          refine (congrArg Fields.keys hnew).trans ?_
          rw [Fields.keys, List.map_append]
          rfl
        rw [hkeys, List.append_assoc, List.singleton_append]

/-! ## Rows -/

/-- The row of a key, if it has entries. -/
def row? (entries : List Entry) (k : String) : Option Value :=
  (ofKey entries k).head?.map fun e => accs.row e.1 ((ofKey entries k).map (·.2))

theorem keys_gathered (entries : List Entry) :
    Fields.keys (gatherAll accs [] entries) = (entries.map Entry.key).eraseDups := by
  have hempty : (Fields.keys ([] : Groups)).Nodup := List.nodup_nil
  exact keys_gatherAll accs hempty entries

theorem nodup_keys_gathered (entries : List Entry) :
    (Fields.keys (gatherAll accs [] entries)).Nodup := by
  have hempty : (Fields.keys ([] : Groups)).Nodup := List.nodup_nil
  exact nodup_keys_gatherAll accs hempty entries

/-- **The rows** are those of the keys in the order in which they first appear. -/
theorem rows_eq (entries : List Entry) :
    rows accs entries = (entries.map Entry.key).eraseDups.filterMap (row? accs entries) := by
  have hrows : rows accs entries = (gatherAll accs [] entries).map fun g =>
      .object (accs.finish g.2.2 [(idField, g.2.1)]) := rfl
  rw [hrows, Fields.map_eq_filterMap_get? (nodup_keys_gathered accs entries), keys_gathered]
  refine List.filterMap_congr fun k _ => ?_
  rw [get?_gatherAll, Fields.get?_nil, foldl_fed, Option.map_map]
  rfl

theorem ofKey_ofKey (entries : List Entry) (k : String) :
    ofKey (ofKey entries k) k = ofKey entries k := by
  rw [ofKey, ofKey, List.filter_filter]
  simp only [Bool.and_self]

/-- The entries of a key alone give its row alone. -/
theorem rows_ofKey {entries : List Entry} {k : String} {row : Value}
    (h : row? accs entries k = some row) : rows accs (ofKey entries k) = [row] := by
  obtain ⟨e, he, -⟩ := Option.map_eq_some_iff.1 h
  have hone : ((ofKey entries k).map Entry.key).eraseDups = [k] := by
    refine eraseDups_eq_singleton ?_ (List.forall_mem_map.2 fun e he => ?_)
    · rw [Ne, List.map_eq_nil_iff]
      intro hnil
      rw [hnil] at he
      cases he
    · exact eq_of_beq (List.mem_filter.1 he).2
  have hrow : row? accs (ofKey entries k) k = some row := by
    rw [row?, ofKey_ofKey]
    exact h
  rw [rows_eq, hone, List.filterMap_cons_some hrow, List.filterMap_nil]

variable {accs}

theorem exists_row? {entries : List Entry} {k : String}
    (hk : k ∈ (entries.map Entry.key).eraseDups) : ∃ row, row? accs entries k = some row := by
  obtain ⟨e, he, rfl⟩ := List.mem_map.1 (List.mem_eraseDups.1 hk)
  have hne : ofKey entries e.key ≠ [] :=
    List.ne_nil_of_mem (List.mem_filter.2 ⟨he, beq_self_eq_true e.key⟩)
  obtain ⟨first, others, hcons⟩ := List.exists_cons_of_ne_nil hne
  exact ⟨_, by rw [row?, hcons, List.head?_cons, Option.map_some]⟩

/-- The id of a row has its key. -/
theorem get?_row? (hid : idField ∉ accs.map (·.1)) {entries : List Entry} {k : String} {row : Value}
    (h : row? accs entries k = some row) :
    ∃ id, row.get? idField = some id ∧ id.canonicalKey = k := by
  obtain ⟨e, he, rfl⟩ := Option.map_eq_some_iff.1 h
  refine ⟨e.1, Accumulators.get?_row hid _ _, ?_⟩
  exact eq_of_beq (List.mem_filter.1 (List.mem_of_head? he)).2

/-- The keys of the rows. -/
theorem map_key_rows (hid : idField ∉ accs.map (·.1)) (entries : List Entry) :
    (rows accs entries).map (fun row => (row.get? idField).map Value.canonicalKey) =
      (entries.map Entry.key).eraseDups.map some := by
  rw [rows_eq, List.map_filterMap, ← List.filterMap_eq_map (f := some)]
  refine List.filterMap_congr fun k hk => ?_
  obtain ⟨row, hrow⟩ : ∃ row, row? accs entries k = some row := exists_row? hk
  obtain ⟨id, hget, hkey⟩ := get?_row? hid hrow
  rw [hrow, Option.map_some, hget, Option.map_some, hkey]
  rfl

/-! ## Blocks -/

section Blocks

variable {α : Type} (id : α → Value) (inputs : α → List Inputs)

/-- Entries of one group value. -/
def block (a : α) : List Entry := (inputs a).map fun i => (id a, i)

variable {id inputs}

theorem key_of_mem_block {a : α} {e : Entry} (h : e ∈ block id inputs a) :
    e.key = (id a).canonicalKey := by
  obtain ⟨i, -, rfl⟩ := List.mem_map.1 h
  rfl

theorem ofKey_block_self (a : α) :
    ofKey (block id inputs a) (id a).canonicalKey = block id inputs a :=
  List.filter_eq_self.2 fun _ he => beq_iff_eq.2 (key_of_mem_block he)

theorem ofKey_block_of_ne {a : α} {k : String} (h : (id a).canonicalKey ≠ k) :
    ofKey (block id inputs a) k = [] :=
  List.filter_eq_nil_iff.2 fun _ he => by simpa [key_of_mem_block he] using h

variable {as : List α}

/-- Of blocks with different keys, a key picks out its own. -/
theorem ofKey_blocks (hkeys : (as.map fun a => (id a).canonicalKey).Nodup) {a : α} (ha : a ∈ as) :
    ofKey (as.flatMap (block id inputs)) (id a).canonicalKey = block id inputs a := by
  induction as with
  | nil => cases ha
  | cons b rest ih =>
      obtain ⟨hb, hrest⟩ := List.nodup_cons.1 hkeys
      rw [List.flatMap_cons, ofKey, List.filter_append]
      change ofKey (block id inputs b) _ ++ ofKey (rest.flatMap (block id inputs)) _ = _
      rcases List.mem_cons.1 ha with rfl | ha
      · have hnone : ofKey (rest.flatMap (block id inputs)) (id a).canonicalKey = [] := by
          refine List.filter_eq_nil_iff.2 fun e he hkey => hb ?_
          obtain ⟨c, hc, he⟩ := List.mem_flatMap.1 he
          refine List.mem_map.2 ⟨c, hc, ?_⟩
          rw [← key_of_mem_block he, eq_of_beq hkey]
        rw [ofKey_block_self, hnone, List.append_nil]
      · have hne : (id b).canonicalKey ≠ (id a).canonicalKey :=
          fun heq => hb (List.mem_map.2 ⟨a, ha, heq.symm⟩)
        rw [ofKey_block_of_ne hne, List.nil_append, ih hrest ha]

/-- The keys of blocks appear in the order of the blocks. -/
theorem eraseDups_keys_blocks (hkeys : (as.map fun a => (id a).canonicalKey).Nodup)
    (hne : ∀ a ∈ as, inputs a ≠ []) : ((as.flatMap (block id inputs)).map Entry.key).eraseDups =
      as.map fun a => (id a).canonicalKey := by
  induction as with
  | nil => rfl
  | cons a rest ih =>
      obtain ⟨ha, hrest⟩ := List.nodup_cons.1 hkeys
      obtain ⟨hne, hnerest⟩ := List.forall_mem_cons.1 hne
      have hone : ((block id inputs a).map Entry.key).eraseDups = [(id a).canonicalKey] := by
        refine eraseDups_eq_singleton (by simpa [block] using hne) ?_
        exact List.forall_mem_map.2 fun e he => key_of_mem_block he
      -- No key of the block occurs in those that follow.
      have hapart : ((rest.flatMap (block id inputs)).map Entry.key).removeAll
          ((block id inputs a).map Entry.key) = (rest.flatMap (block id inputs)).map Entry.key := by
        refine List.filter_eq_self.2 (List.forall_mem_map.2 fun e he => ?_)
        obtain ⟨b, hb, he⟩ := List.mem_flatMap.1 he
        have hother : e.key ∉ (block id inputs a).map Entry.key := by
          intro hmem
          obtain ⟨f, hf, hkey⟩ := List.mem_map.1 hmem
          rw [key_of_mem_block he, key_of_mem_block hf] at hkey
          exact ha (List.mem_map.2 ⟨b, hb, hkey.symm⟩)
        simpa using hother
      rw [List.flatMap_cons, List.map_append, List.eraseDups_append, hone, hapart,
        ih hrest hnerest, List.map_cons, List.singleton_append]

/-- **Rows of blocks.** Blocks with different keys give one row each, in their order. -/
theorem rows_blocks (hkeys : (as.map fun a => (id a).canonicalKey).Nodup)
    (hne : ∀ a ∈ as, inputs a ≠ []) :
    rows accs (as.flatMap (block id inputs)) = as.map fun a => accs.row (id a) (inputs a) := by
  rw [rows_eq, eraseDups_keys_blocks hkeys hne, List.filterMap_map, ← List.filterMap_eq_map]
  refine List.filterMap_congr fun a ha => ?_
  have hfirst : (block id inputs a).head?.map (·.1) = some (id a) := by
    obtain ⟨i, rest, hcons⟩ := List.exists_cons_of_ne_nil (hne a ha)
    rw [block, hcons, List.map_cons, List.head?_cons, Option.map_some]
  obtain ⟨e, he, hid⟩ := Option.map_eq_some_iff.1 hfirst
  have hinputs : (block id inputs a).map (·.2) = inputs a := by
    rw [block, List.map_map]
    exact List.map_id _
  rw [Function.comp_apply, row?, ofKey_blocks hkeys ha, he, Option.map_some, hid, hinputs]
  rfl

end Blocks

/-! ## Documents -/

/-- A document is evaluated if its group value is, and the inputs of all accumulators. -/
theorem evaluates_iff {id : Expr} {accs : Accumulators} {doc : Value} :
    evaluates id accs doc = true ↔ (∃ v, id.eval doc = .ok v) ∧
      ∀ a ∈ accs, ∃ input, a.2.input.eval? doc = .ok input := by
  have hkeyed : Settles (fun _ => True) ((∃ v, id.eval doc = .ok v) ∧
      ∀ a ∈ accs, ∃ input, a.2.input.eval? doc = .ok input) (keyed id accs doc) :=
    (settles_self _).bind fun _ =>
      Settles.bind_ok (settles_mapM fun a _ => settles_self (a.2.input.eval? doc))
  rw [← hkeyed.exists_ok_iff, evaluates]
  cases keyed id accs doc with
  | error e => simp [Except.toOption]
  | ok e => simp [Except.toOption]

variable (s : GroupStage)

/-- What the stage gathers of a document that it evaluates. -/
def entryOf (doc : Value) : Entry := (keyOf s.id doc, inputsOf s.accumulators doc)

/-- The canonical key of the group value of a document, if it has one. -/
def keyOf? (doc : Value) : Option String := (s.id.eval doc).toOption.map Value.canonicalKey

/-- The documents whose group value has a canonical key. -/
def sharing (k : String) (docs : List Value) : List Value := docs.filter (s.keyOf? · == some k)

/-- The documents that the stage evaluates. -/
abbrev counted (docs : List Value) : List Value := evaluated s.id s.accumulators docs

/-- What a run of the stage gives. -/
structure Tabulates (index : Nat) (docs rows : List Value) : Prop where
  result : (s.run index docs).result = .ok rows
  /-- The keys of the rows are those of the evaluated documents, in the order in which they first
  appear there. -/
  order : rows.map (fun row => (row.get? idField).map Value.canonicalKey) =
    ((s.counted docs).filterMap s.keyOf?).eraseDups.map some
  distinct : (rows.map fun row => (row.get? idField).map Value.canonicalKey).Nodup
  /-- A row is what the stage gives on the documents of its key. -/
  alone : ∀ row ∈ rows, ∃ id, row.get? idField = some id ∧
    ∀ index, (s.run index (s.sharing id.canonicalKey docs)).result = .ok [row]
  /-- A document is left out if its group value or one of its inputs cannot be computed. -/
  counted_iff : ∀ d, d ∈ s.counted docs ↔ d ∈ docs ∧ (∃ v, s.id.eval d = .ok v) ∧
    ∀ a ∈ s.accumulators, ∃ input, a.2.input.eval? d = .ok input
  /-- Documents that are left out do not count in any row. -/
  unaffected : ∀ index, (s.run index (s.counted docs)).result = .ok rows
  /-- Each of them is recorded with its error. -/
  failures : List.Forall₂
    (fun d failure => ∃ e, keyed s.id s.accumulators d = .error e ∧
      failure = { index, stage := "$group", error := e })
    (docs.filter fun d => !evaluates s.id s.accumulators d) (s.run index docs).failures

variable {s}

theorem result_run (index : Nat) (docs : List Value) :
    (s.run index docs).result = .ok (rows s.accumulators ((s.counted docs).map s.entryOf)) :=
  Run.result_bind_eq_ok.2 ⟨_, result_keepAll_keyed s.id s.accumulators index "$group" docs, rfl⟩

theorem failures_run (index : Nat) (docs : List Value) :
    (s.run index docs).failures =
      (Run.keepAll index "$group" (docs.map (keyed s.id s.accumulators))).failures := by
  change (Run.andThen (Run.keepAll index "$group" _) _).failures = _
  rw [Run.andThen, result_keepAll_keyed]
  exact List.append_nil _

theorem keyOf?_of_evaluates {doc : Value} (h : evaluates s.id s.accumulators doc = true) :
    s.keyOf? doc = some (s.entryOf doc).key := by
  obtain ⟨v, hv⟩ := (evaluates_iff.1 h).1
  rw [keyOf?, entryOf, Entry.key, keyOf, hv]
  rfl

theorem filterMap_keyOf? (docs : List Value) :
    (s.counted docs).filterMap s.keyOf? = ((s.counted docs).map s.entryOf).map Entry.key := by
  rw [List.map_map, ← List.filterMap_eq_map]
  exact List.filterMap_congr fun d hd => keyOf?_of_evaluates (List.mem_filter.1 hd).2

/-- The entries of the documents that share a key. -/
theorem entries_sharing (k : String) (docs : List Value) :
    (s.counted (s.sharing k docs)).map s.entryOf = ofKey ((s.counted docs).map s.entryOf) k := by
  have hswap : s.counted (s.sharing k docs) = s.sharing k (s.counted docs) := by
    simp only [counted, evaluated, sharing, List.filter_filter]
    exact List.filter_congr fun d _ => Bool.and_comm _ _
  rw [hswap, sharing, ofKey, List.filter_map]
  refine congrArg _ (List.filter_congr fun d hd => ?_)
  rw [keyOf?_of_evaluates (List.mem_filter.1 hd).2]
  rfl

theorem tabulates (hid : idField ∉ s.accumulators.map (·.1)) (index : Nat) (docs : List Value) :
    s.Tabulates index docs (rows s.accumulators ((s.counted docs).map s.entryOf)) := by
  have hkeys := map_key_rows hid ((s.counted docs).map s.entryOf)
  exact {
    result := result_run index docs
    order := by rw [hkeys, filterMap_keyOf?]
    distinct := by
      rw [hkeys, ← keys_gathered s.accumulators]
      exact (nodup_keys_gathered s.accumulators _).map (Option.some_injective String)
    alone := by
      intro row hrow
      rw [rows_eq] at hrow
      obtain ⟨k, -, hrow⟩ := List.mem_filterMap.1 hrow
      obtain ⟨id, hget, rfl⟩ := get?_row? hid hrow
      refine ⟨id, hget, fun index => ?_⟩
      rw [result_run, entries_sharing, rows_ofKey s.accumulators hrow]
    counted_iff := fun d => List.mem_filter.trans (and_congr_right fun _ => evaluates_iff)
    unaffected := by
      intro index
      have hcounted : s.counted (s.counted docs) = s.counted docs := by
        simp only [counted, evaluated, List.filter_filter, Bool.and_self]
      rw [result_run, hcounted]
    failures := by
      rw [failures_run]
      exact Run.failures_keepAll index "$group" fun d _ => failsLocally_keyed _ _ d }

/-! ## Reading -/

end GroupStage

namespace Accumulators

/-- Reserved names are left to the rows. -/
theorem gives_read (reserved : List String) (fields : List (String × Json)) :
    Gives (read reserved fields) fun accs => ∀ name ∈ reserved, name ∉ accs.map (·.1) := by
  induction fields with
  | nil => exact gives_pure fun _ _ => List.not_mem_nil
  | cons e rest ih =>
      obtain ⟨field, spec⟩ := e
      rw [read]
      split
      · exact ih
      · rename_i hfield
        split
        · exact gives_fail _
        · refine gives_bind (gives_any _) fun acc _ => gives_bind ih fun accs haccs => ?_
          refine gives_pure fun name hname hmem => ?_
          rcases List.mem_cons.1 hmem with rfl | hmem
          · exact hfield (List.contains_iff_mem.2 hname)
          · exact haccs name hname hmem

end Accumulators

namespace GroupStage

theorem gives_read (j : Json) :
    Gives (GroupStage.read j) fun s => idField ∉ s.accumulators.map (·.1) := by
  cases j with
  | object fields =>
      refine gives_bind (gives_any _) fun id _ => gives_bind (gives_any _) fun id _ => ?_
      refine gives_bind (Accumulators.gives_read [idField] fields) fun accs haccs => ?_
      exact gives_pure (haccs idField (List.mem_singleton_self _))
  | _ => exact gives_fail _

/-- **Groups.** Whatever `$group` stage is read, and whatever documents it is run on, the run gives
rows: one for each key of an evaluated document, in the order in which the keys first appear, and
each as the documents of its key alone give it. -/
theorem tabulates_of_read {j : Json} {cache : PatternCache} {s : GroupStage}
    (hread : ((GroupStage.read j : CachedReading GroupStage).run.run cache).1 = .ok s)
    (index : Nat) (docs : List Value) : ∃ rows, s.Tabulates index docs rows :=
  ⟨_, tabulates (gives_read j cache s hread) index docs⟩

/-- An animal that is tame or not, with its legs. -/
def animal (tame : Bool) (legs : Value) : Value := .object [("tame", .bool tame), ("legs", legs)]

/-- Tame animals and others in turn, one of them with legs that cannot be counted. -/
def animals : List Value :=
  [animal true (.int 2), animal false (.int 4), animal true (.string "two"), animal true (.int 1)]

/-- The stage that lists the legs of tame animals and of others, and counts shoes for them. -/
def byTame : GroupStage where
  id := .field "tame"
  accumulators := [("legs", { op := .push, input := .field "legs" }),
    ("shoes", { op := .sum, input := .multiply [.field "legs", .literal (.int 2)] })]

/-- The rows of the animals. -/
def tameRows : List Value :=
  [.object [("_id", .bool true), ("legs", .array [.int 2, .int 1]), ("shoes", .int 6)],
    .object [("_id", .bool false), ("legs", .array [.int 4]), ("shoes", .int 8)]]

theorem always_read_byTame : Always (GroupStage.read (.object [("_id", .string "$tame"),
    ("legs", .object [("$push", .string "$legs")]),
    ("shoes", .object [("$sum", .object [("$multiply",
      .array [.string "$legs", .number (.integer 2)])])])])) byTame := by
  have htame : Always (Expr.read (.string "$tame")) (.field "tame") :=
    Expr.always_read_text fun _ => rfl
  have hlegs : Always (Expr.read (.string "$legs")) (.field "legs") :=
    Expr.always_read_text fun _ => rfl
  have hfactors : Always (Expr.readItems [.string "$legs", .number (.integer 2)])
      [.field "legs", .literal (.int 2)] :=
    Expr.always_readItems_cons hlegs
      (Expr.always_readItems_cons (Expr.always_read_number _) Expr.always_readItems_nil)
  have hdouble : Always (Expr.read (.object [("$multiply",
      .array [.string "$legs", .number (.integer 2)])]))
        (.multiply [.field "legs", .literal (.int 2)]) := by
    refine Expr.always_read_operator (by decide +kernel) ?_
    rw [Expr.readOperator, Expr.readArguments]
    exact hfactors.bind (always_pure _)
  have hpush : Always (Accumulators.readOne "legs" (.object [("$push", .string "$legs")]))
      { op := .push, input := .field "legs" } := hlegs.bind (always_pure _)
  have hsum : Always (Accumulators.readOne "shoes" (.object [("$sum", .object [("$multiply",
      .array [.string "$legs", .number (.integer 2)])])]))
        { op := .sum, input := .multiply [.field "legs", .literal (.int 2)] } :=
    hdouble.bind (always_pure _)
  have haccs : Always (Accumulators.read [idField] [("_id", .string "$tame"),
      ("legs", .object [("$push", .string "$legs")]),
      ("shoes", .object [("$sum", .object [("$multiply",
        .array [.string "$legs", .number (.integer 2)])])])]) byTame.accumulators :=
    Accumulators.always_read_reserved rfl
      (Accumulators.always_read_cons rfl (by simp [Segments.isOperator]) hpush
        (Accumulators.always_read_cons rfl (by simp [Segments.isOperator]) hsum (always_pure [])))
  exact (always_require rfl _).bind (htame.bind (haccs.bind (always_pure byTame)))

theorem tabulates_of_read_byTame :
    ((GroupStage.read (.object [("_id", .string "$tame"),
        ("legs", .object [("$push", .string "$legs")]),
        ("shoes", .object [("$sum", .object [("$multiply",
          .array [.string "$legs", .number (.integer 2)])])])]) :
      CachedReading GroupStage).run.run .empty).1 = .ok byTame ∧
    byTame.Tabulates 0 animals tameRows := by
  have hread := congrArg Prod.fst (always_read_byTame .empty)
  have hrun : (byTame.run 0 animals).result = .ok tameRows := rfl
  obtain ⟨rows, hrows⟩ := tabulates_of_read hread 0 animals
  obtain rfl : rows = tameRows := Except.ok.inj (hrows.result.symm.trans hrun)
  exact ⟨hread, hrows⟩

end GroupStage

end DocStore
