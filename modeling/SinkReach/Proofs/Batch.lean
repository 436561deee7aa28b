/-
# Batches are read back

A batch is handed over as a JSON document.  Decoding the document gives back the batch, whatever
trees its sites have, well-sorted or not (`Batch.ofJson?_toJson`); and since the text of the
document is read back too (`Json.read?_write`), so is the text of the batch, as long as it is not
nested too deep (`Batch.handed_over_unchanged`).

The decoding of terms is taken apart once, one lemma for each kind of node, in which the encodings
of the parts are arbitrary documents.  The induction over terms then only puts these together; what
it carries along is that the fuel of the decoder exceeds the depth of the document.
-/
import SinkReach.Evaluation
import SinkReach.Proofs.Json.Nesting
import SinkReach.Proofs.Json.Record

namespace SinkReach

/-! ## 1. Names and constants -/

theorem ValueSort.ofName?_name (s : ValueSort) : ofName? s.name = some s := by cases s <;> rfl

theorem ArithOp.ofName?_name (op : ArithOp) : ofName? op.name = some op := by cases op <;> rfl

theorem CompareOp.ofName?_name (op : CompareOp) : ofName? op.name = some op := by cases op <;> rfl

/-- A bare constant is read as one of its own kind. -/
theorem Constant.ofJson?_toJson (c : Constant) : ofJson? c.toJson = some c := by
  cases c with
  | bool b => rfl
  | str s => rfl
  | int n =>
    have hint : ofJson? (.int n.toInt) = (Json.int64? (.int n.toInt)).map .int := rfl
    rw [toJson, hint, Json.int64?_toInt, Option.map_some]

/-! ## 2. Nodes -/

section

variable {n : Nat} {j k m : Json}

namespace Value

theorem ofJsonWithin?_lit (c : Constant) :
    ofJsonWithin? (n + 1) (.obj [("literal", c.toJson)]) = some (.lit c) := by
  simp only [ofJsonWithin?, Json.choice?, Constant.ofJson?_toJson, Option.map_some]

theorem ofJsonWithin?_var (name : String) (s : ValueSort) :
    ofJsonWithin? (n + 1) (.obj [("free_var", .obj [("name", .str name), ("sort", .str s.name)])])
      = some (.var name s) := by
  simp [ofJsonWithin?, Json.choice?, Json.record?_obj, Json.str?, Json.name?_str,
    ValueSort.ofName?_name]

theorem ofJsonWithin?_concat {js : List Json} {parts : List Value}
    (h : js.mapM (ofJsonWithin? n) = some parts) :
    ofJsonWithin? (n + 1) (.obj [("concat", .arr js)]) = some (.concat parts) := by
  simp [ofJsonWithin?, Json.choice?, Json.arr?, h]

theorem ofJsonWithin?_arith (op : ArithOp) {l r : Value} (hl : ofJsonWithin? n j = some l)
    (hr : ofJsonWithin? n k = some r) :
    ofJsonWithin? (n + 1) (.obj [("arith", .obj [("op", .str op.name), ("left", j), ("right", k)])])
      = some (.arith op l r) := by
  simp [ofJsonWithin?, Json.choice?, Json.record?_obj, Json.name?_str, ArithOp.ofName?_name, hl, hr]

theorem ofJsonWithin?_ite {c : Guard} {t e : Value} (hc : Guard.ofJsonWithin? n m = some c)
    (ht : ofJsonWithin? n j = some t) (he : ofJsonWithin? n k = some e) :
    ofJsonWithin? (n + 1) (.obj [("ite", .obj [("cond", m), ("then", j), ("otherwise", k)])])
      = some (.ite c t e) := by
  simp [ofJsonWithin?, Json.choice?, Json.record?_obj, hc, ht, he]

end Value

namespace Guard

theorem ofJsonWithin?_const (b : Bool) :
    ofJsonWithin? (n + 1) (.obj [("bool_literal", .bool b)]) = some (.const b) := by
  simp [ofJsonWithin?, Json.choice?, Json.bool?]

theorem ofJsonWithin?_compare (op : CompareOp) {l r : Value} (hl : Value.ofJsonWithin? n j = some l)
    (hr : Value.ofJsonWithin? n k = some r) :
    ofJsonWithin? (n + 1)
        (.obj [("compare", .obj [("op", .str op.name), ("left", j), ("right", k)])])
      = some (.compare op l r) := by
  simp [ofJsonWithin?, Json.choice?, Json.record?_obj, Json.name?_str, CompareOp.ofName?_name, hl,
    hr]

theorem ofJsonWithin?_not {g : Guard} (h : ofJsonWithin? n j = some g) :
    ofJsonWithin? (n + 1) (.obj [("not", j)]) = some (.not g) := by
  simp [ofJsonWithin?, Json.choice?, h]

theorem ofJsonWithin?_junction (kind : Junction) {js : List Json} {parts : List Guard}
    (h : js.mapM (ofJsonWithin? n) = some parts) :
    ofJsonWithin? (n + 1) (.obj [(kind.name, .arr js)]) = some (.junction kind parts) := by
  cases kind <;> simp [ofJsonWithin?, Json.choice?, Junction.name, Json.arr?, h]

theorem ofJsonWithin?_affix (side : Side) {part text : Value}
    (hpart : Value.ofJsonWithin? n j = some part) (htext : Value.ofJsonWithin? n k = some text) :
    ofJsonWithin? (n + 1) (.obj [(side.name, .obj [(side.fieldName, j), ("value", k)])])
      = some (.affix side part text) := by
  cases side <;>
    simp [ofJsonWithin?, Json.choice?, Side.name, Side.fieldName, Json.record?_obj, hpart, htext]

end Guard

end

/-! ## 3. Terms -/

mutual

/-- **A value is read back from its encoding.** -/
theorem Value.ofJsonWithin?_toJson (v : Value) (n : Nat) (hn : v.toJson.depth < n) :
    Value.ofJsonWithin? n v.toJson = some v := by
  obtain ⟨n, rfl⟩ : ∃ m, n = m + 1 := ⟨n - 1, by omega⟩
  cases v with
  | lit c => exact Value.ofJsonWithin?_lit c
  | var name s => exact Value.ofJsonWithin?_var name s
  | concat parts =>
    simp only [Value.toJson, Json.depth, Json.fieldsDepth] at hn
    exact Value.ofJsonWithin?_concat (Value.mapM_toJsonAll parts n (by omega))
  | arith op l r =>
    simp only [Value.toJson, Json.depth, Json.fieldsDepth] at hn
    exact Value.ofJsonWithin?_arith op (Value.ofJsonWithin?_toJson l n (by omega))
      (Value.ofJsonWithin?_toJson r n (by omega))
  | ite c t e =>
    simp only [Value.toJson, Json.depth, Json.fieldsDepth] at hn
    exact Value.ofJsonWithin?_ite (Guard.ofJsonWithin?_toJson c n (by omega))
      (Value.ofJsonWithin?_toJson t n (by omega)) (Value.ofJsonWithin?_toJson e n (by omega))

theorem Value.mapM_toJsonAll (vs : List Value) (n : Nat)
    (hn : Json.itemsDepth (Value.toJsonAll vs) < n) :
    (Value.toJsonAll vs).mapM (Value.ofJsonWithin? n) = some vs := by
  cases vs with
  | nil => rfl
  | cons v vs =>
    simp only [Value.toJsonAll, Json.itemsDepth] at hn
    rw [Value.toJsonAll, List.mapM_cons, Value.ofJsonWithin?_toJson v n (by omega),
      Value.mapM_toJsonAll vs n (by omega)]
    rfl

/-- **A guard is read back from its encoding.** -/
theorem Guard.ofJsonWithin?_toJson (g : Guard) (n : Nat) (hn : g.toJson.depth < n) :
    Guard.ofJsonWithin? n g.toJson = some g := by
  obtain ⟨n, rfl⟩ : ∃ m, n = m + 1 := ⟨n - 1, by omega⟩
  cases g with
  | const b => exact Guard.ofJsonWithin?_const b
  | compare op l r =>
    simp only [Guard.toJson, Json.depth, Json.fieldsDepth] at hn
    exact Guard.ofJsonWithin?_compare op (Value.ofJsonWithin?_toJson l n (by omega))
      (Value.ofJsonWithin?_toJson r n (by omega))
  | not g =>
    simp only [Guard.toJson, Json.depth, Json.fieldsDepth] at hn
    exact Guard.ofJsonWithin?_not (Guard.ofJsonWithin?_toJson g n (by omega))
  | junction kind parts =>
    simp only [Guard.toJson, Json.depth, Json.fieldsDepth] at hn
    exact Guard.ofJsonWithin?_junction kind (Guard.mapM_toJsonAll parts n (by omega))
  | affix side part text =>
    simp only [Guard.toJson, Json.depth, Json.fieldsDepth] at hn
    exact Guard.ofJsonWithin?_affix side (Value.ofJsonWithin?_toJson part n (by omega))
      (Value.ofJsonWithin?_toJson text n (by omega))

theorem Guard.mapM_toJsonAll (gs : List Guard) (n : Nat)
    (hn : Json.itemsDepth (Guard.toJsonAll gs) < n) :
    (Guard.toJsonAll gs).mapM (Guard.ofJsonWithin? n) = some gs := by
  cases gs with
  | nil => rfl
  | cons g gs =>
    simp only [Guard.toJsonAll, Json.itemsDepth] at hn
    rw [Guard.toJsonAll, List.mapM_cons, Guard.ofJsonWithin?_toJson g n (by omega),
      Guard.mapM_toJsonAll gs n (by omega)]
    rfl

end

theorem Value.ofJson?_toJson (v : Value) : Value.ofJson? v.toJson = some v :=
  v.ofJsonWithin?_toJson _ (Nat.lt_succ_self _)

theorem Guard.ofJson?_toJson (g : Guard) : Guard.ofJson? g.toJson = some g :=
  g.ofJsonWithin?_toJson _ (Nat.lt_succ_self _)

theorem Guard.toJsonAll_eq_map (gs : List Guard) : Guard.toJsonAll gs = gs.map Guard.toJson := by
  induction gs with
  | nil => rfl
  | cons g gs ih => rw [Guard.toJsonAll, List.map_cons, ih]

theorem Constant.isExact_toJson (c : Constant) : c.toJson.isExact = true := by
  cases c with
  | bool b => rfl
  | str s => rfl
  | int n => exact Json.isExact_toInt n

mutual

/-- The encoding of a value has no number but those of its literals. -/
theorem Value.isExact_toJson (v : Value) : v.toJson.isExact = true := by
  cases v with
  | lit c => simp [Value.toJson, Json.isExact, Json.fieldsExact, c.isExact_toJson]
  | var name s => rfl
  | concat parts =>
    simp [Value.toJson, Json.isExact, Json.fieldsExact, Value.itemsExact_toJsonAll parts]
  | arith op l r =>
    simp [Value.toJson, Json.isExact, Json.fieldsExact, l.isExact_toJson, r.isExact_toJson]
  | ite c t e =>
    simp [Value.toJson, Json.isExact, Json.fieldsExact, c.isExact_toJson, t.isExact_toJson,
      e.isExact_toJson]

theorem Value.itemsExact_toJsonAll (vs : List Value) :
    Json.itemsExact (Value.toJsonAll vs) = true := by
  cases vs with
  | nil => rfl
  | cons v vs =>
    simp [Value.toJsonAll, Json.itemsExact, v.isExact_toJson, Value.itemsExact_toJsonAll vs]

theorem Guard.isExact_toJson (g : Guard) : g.toJson.isExact = true := by
  cases g with
  | const b => rfl
  | compare op l r =>
    simp [Guard.toJson, Json.isExact, Json.fieldsExact, l.isExact_toJson, r.isExact_toJson]
  | not g => simp [Guard.toJson, Json.isExact, Json.fieldsExact, g.isExact_toJson]
  | junction kind parts =>
    simp [Guard.toJson, Json.isExact, Json.fieldsExact, Guard.itemsExact_toJsonAll parts]
  | affix side part text =>
    simp [Guard.toJson, Json.isExact, Json.fieldsExact, part.isExact_toJson, text.isExact_toJson]

theorem Guard.itemsExact_toJsonAll (gs : List Guard) :
    Json.itemsExact (Guard.toJsonAll gs) = true := by
  cases gs with
  | nil => rfl
  | cons g gs =>
    simp [Guard.toJsonAll, Json.itemsExact, g.isExact_toJson, Guard.itemsExact_toJsonAll gs]

end

/-! ## 4. Sites -/

-- The number is a variable here: no bound of a word is ever evaluated.
theorem SiteId.ofJson?_obj (function span : String) {index : Json} {argIndex : UInt64}
    (h : index.uint64? = some argIndex) :
    SiteId.ofJson? (.obj [("function", .str function), ("arg_index", index), ("span", .str span)])
      = some ⟨function, argIndex, span⟩ := by
  simp [SiteId.ofJson?, Json.record?_obj, Json.str?, h]

theorem SiteId.ofJson?_toJson (id : SiteId) : SiteId.ofJson? id.toJson = some id :=
  SiteId.ofJson?_obj id.function id.span (Json.uint64?_ofUInt64 id.argIndex)

theorem SiteId.isExact_toJson (id : SiteId) : id.toJson.isExact = true := by
  simp [SiteId.toJson, Json.isExact, Json.fieldsExact, Json.isExact_ofUInt64]

theorem Site.ofJson?_toJson (site : Site) : Site.ofJson? site.toJson = some site := by
  have hpath := mapM_map_eq_some Guard.ofJson?_toJson site.path
  simp [Site.ofJson?, Site.toJson, Json.record?_obj, Json.arr?, Guard.toJsonAll_eq_map, hpath,
    SiteId.ofJson?_toJson, Value.ofJson?_toJson]

theorem Site.isExact_toJson (site : Site) : site.toJson.isExact = true := by
  simp [Site.toJson, Json.isExact, Json.fieldsExact, site.id.isExact_toJson,
    site.value.isExact_toJson, Guard.itemsExact_toJsonAll]

/-! ## 5. Batches -/

namespace Batch

theorem ofJson?_obj {version : Json} {sites : List Json} {v : UInt32} {ss : List Site}
    (hversion : version.uint32? = some v) (hsites : sites.mapM Site.ofJson? = some ss) :
    ofJson? (.obj [("version", version), ("sites", .arr sites)]) = some ⟨v, ss⟩ := by
  simp [ofJson?, Json.record?_obj, Json.arr?, hversion, hsites]

theorem ofJson?_toJson (b : Batch) : ofJson? b.toJson = some b :=
  ofJson?_obj (Json.uint32?_ofUInt32 b.version) (mapM_map_eq_some Site.ofJson?_toJson b.sites)

theorem isExact_toJson (b : Batch) : b.toJson.isExact = true := by
  have hsites : Json.itemsExact (b.sites.map Site.toJson) = true := by
    induction b.sites with
    | nil => rfl
    | cons site sites ih => simp [Json.itemsExact, site.isExact_toJson, ih]
  simp [toJson, Json.isExact, Json.fieldsExact, Json.isExact_ofUInt32, hsites]

/-- Whatever is left of the sites, the version is the one that was written. -/
theorem version_of_ofJson? {version sites : Json} {v : UInt32} {b : Batch}
    (hversion : version.uint32? = some v)
    (h : ofJson? (.obj [("version", version), ("sites", sites)]) = some b) : b.version = v := by
  simp only [ofJson?, Option.bind_eq_bind] at h
  simp [Json.record?_obj, hversion, Option.bind_eq_some_iff] at h
  obtain ⟨items, -, ss, -, rfl⟩ := h
  rfl

theorem read_write {b : Batch} (hnesting : Json.nesting b.write ≤ nestingLimit) :
    read b.write = b.checkVersion := by
  have hdepth : b.toJson.depth ≤ nestingLimit := by
    rwa [write, Json.nesting_write b.isExact_toJson] at hnesting
  rw [read, write, Json.read?_write b.isExact_toJson hdepth, Option.bind_some, ofJson?_toJson]

/-- A version that is not supported is found, however deep the sites are nested. -/
theorem read_write_of_version_ne {b : Batch} (hversion : b.version ≠ formatVersion) :
    ∃ fault, read b.write = .error fault := by
  rw [read, write, Json.read?_write_eq_cut nestingLimit b.isExact_toJson, Option.bind_some]
  cases hcut : ofJson? (b.toJson.cut nestingLimit) with
  | none => exact ⟨.malformed, rfl⟩
  | some c =>
    have hc : c.version = b.version := version_of_ofJson? (Json.uint32?_ofUInt32 b.version) hcut
    exact ⟨.unsupportedVersion c.version, if_neg (hc ▸ hversion)⟩

/-- A file with a text that cannot be read as a batch is refused as input. -/
theorem load_eq_error {t : FileTree} {path text : String} {fault : BatchFault}
    (hfile : t.read path = .ok text) (hread : read text = .error fault) :
    load t path = .error (.input fault) := by
  rw [load, hfile]
  dsimp only
  rw [hread]

/-- **Sites are handed over unchanged.**  Whatever terms a batch has, its encoding is decoded to the
batch itself.  Its text is read back whole if the version is the supported one and no more brackets
are open at once in it than may be; with any other version it is refused as input, and unless it is
nested too deep the fault names the version. -/
theorem handed_over_unchanged (b : Batch) :
    ofJson? b.toJson = some b ∧
    (b.version = formatVersion → Json.nesting b.write ≤ nestingLimit → read b.write = .ok b) ∧
    (b.version ≠ formatVersion → ∃ fault, read b.write = .error fault ∧
      (∀ t path, t.read path = .ok b.write → load t path = .error (.input fault)) ∧
      (Json.nesting b.write ≤ nestingLimit → fault = .unsupportedVersion b.version)) := by
  refine ⟨ofJson?_toJson b, ?_, ?_⟩
  · intro hversion hnesting
    rw [read_write hnesting, checkVersion, if_pos hversion]
  · intro hversion
    obtain ⟨fault, hfault⟩ := read_write_of_version_ne hversion
    refine ⟨fault, hfault, fun t path hfile => load_eq_error hfile hfault, fun hnesting => ?_⟩
    rw [read_write hnesting, checkVersion, if_neg hversion] at hfault
    exact (Except.error.inj hfault).symm

/-- A batch with every kind of term, a text that needs escapes and the least integer. -/
def mixedBatch : Batch :=
  .ofSites [⟨⟨"fs::write", 1, "src/io.rs:4:2"⟩,
    .ite (.affix .finish (.str "\"\n\x01") (.var "name" .string))
      (.concat [.str "é\\", .var "name" .string]) (.bool true),
    [.not (.compare .le (.arith .rem (.int (-9223372036854775808)) (.int 3)) (.var "n" .int)),
      .all [.any [], .const false]]⟩]

theorem handed_over_unchanged_mixedBatch :
    (mixedBatch.version = formatVersion ∧ Json.nesting mixedBatch.write ≤ nestingLimit ∧
      read mixedBatch.write = .ok mixedBatch) ∧
    ((⟨2, mixedBatch.sites⟩ : Batch).version ≠ formatVersion ∧
      ∃ fault, read (write ⟨2, mixedBatch.sites⟩) = .error fault) := by
  have hnesting : Json.nesting mixedBatch.write ≤ nestingLimit := by
    rw [write, Json.nesting_write mixedBatch.isExact_toJson]
    decide +kernel
  have hversion : (⟨2, mixedBatch.sites⟩ : Batch).version ≠ formatVersion := by decide
  obtain ⟨fault, hfault, -⟩ := (handed_over_unchanged ⟨2, mixedBatch.sites⟩).2.2 hversion
  exact ⟨⟨rfl, hnesting, (handed_over_unchanged mixedBatch).2.1 rfl hnesting⟩, hversion, fault,
    hfault⟩

end Batch

end SinkReach
