/-
# Reports are read back

In the document of a report THREE ways to write down alternatives meet.  The fields of an outcome
stand beside those of its verdict, with the field `result` for a tag; the reason of an outcome that
is open is an object of its own, with its kind and, where there is one, its detail; and the
constants of a model are bare.  A verdict without a match has no field for it.

Decoding tells all of this apart again.  `Verdict.ofJson?_obj` is the step that matters: whatever
fields an outcome has, they can be told from those of the verdict, since none has a name of theirs.
`ReportDocument.reports_read_back` puts the parts together.
-/
import SinkReach.Proofs.Batch
import SinkReach.ReportDocument

namespace SinkReach

/-! ## 1. Documents that fit -/

namespace Json

/-- The text of the value says what it is, and no more than `n` brackets are open in it at once. -/
structure Fits (n : Nat) (j : Json) : Prop where
  isExact : j.isExact = true
  depth_le : j.depth ≤ n

variable {n m : Nat} {name : String} {fields : List (String × Json)} {items : List Json}

theorem Fits.mono {j : Json} (h : j.Fits n) (hle : n ≤ m) : j.Fits m :=
  ⟨h.isExact, Nat.le_trans h.depth_le hle⟩

theorem fits_str (s : String) : (Json.str s).Fits n := ⟨rfl, Nat.zero_le n⟩

theorem fits_obj (h : ∀ f ∈ fields, f.2.Fits n) : (Json.obj fields).Fits (n + 1) := by
  have hfields : fieldsExact fields = true ∧ fieldsDepth fields ≤ n := by
    induction fields with
    | nil => exact ⟨rfl, Nat.zero_le n⟩
    | cons f fields ih =>
      obtain ⟨hf, hfields⟩ := List.forall_mem_cons.mp h
      obtain ⟨hexact, hdepth⟩ := ih hfields
      exact ⟨by rw [fieldsExact, hf.isExact, hexact]; rfl, Nat.max_le.mpr ⟨hf.depth_le, hdepth⟩⟩
  exact ⟨hfields.1, Nat.succ_le_succ hfields.2⟩

theorem fits_arr (h : ∀ j ∈ items, j.Fits n) : (Json.arr items).Fits (n + 1) := by
  have hitems : itemsExact items = true ∧ itemsDepth items ≤ n := by
    induction items with
    | nil => exact ⟨rfl, Nat.zero_le n⟩
    | cons j items ih =>
      obtain ⟨hj, hitems⟩ := List.forall_mem_cons.mp h
      obtain ⟨hexact, hdepth⟩ := ih hitems
      exact ⟨by rw [itemsExact, hj.isExact, hexact]; rfl, Nat.max_le.mpr ⟨hj.depth_le, hdepth⟩⟩
  exact ⟨hitems.1, Nat.succ_le_succ hitems.2⟩

mutual

/-- What its text says can be held. -/
theorem isReadable_of_isExact : ∀ {j : Json}, j.isExact = true → j.isReadable = true
  | .null, _ | .bool _, _ | .int _, _ | .str _, _ => rfl
  | .real _, h => absurd h (by simp [isExact])
  | .unreadable, h => absurd h (by simp [isExact])
  | .arr _, h => itemsReadable_of_itemsExact h
  | .obj _, h => fieldsReadable_of_fieldsExact h

theorem itemsReadable_of_itemsExact : ∀ {js : List Json}, itemsExact js = true →
    itemsReadable js = true
  | [], _ => rfl
  | _ :: _, h => by
    obtain ⟨hj, hjs⟩ := Bool.and_eq_true_iff.mp h
    rw [itemsReadable, isReadable_of_isExact hj, itemsReadable_of_itemsExact hjs]
    rfl

theorem fieldsReadable_of_fieldsExact : ∀ {fs : List (String × Json)}, fieldsExact fs = true →
    fieldsReadable fs = true
  | [], _ => rfl
  | (_, _) :: _, h => by
    obtain ⟨hj, hfs⟩ := Bool.and_eq_true_iff.mp h
    rw [fieldsReadable, isReadable_of_isExact hj, fieldsReadable_of_fieldsExact hfs]
    rfl

end

/-- Fields of other names do not matter to a field. -/
theorem field?_append_of_ne (as bs : List (String × Json)) (h : ∀ f ∈ fields, f.1 ≠ name) :
    field? name (as ++ fields ++ bs) = field? name (as ++ bs) := by
  have hnone : fields.filter (fun f => f.1 = name) = [] := by
    rw [List.filter_eq_nil_iff]
    intro f hf hname
    exact h f hf (of_decide_eq_true hname)
  simp only [field?, List.filter_append, hnone, List.append_nil]

/-- Counts below the bound of a word are read back. -/
theorem count?_natCast {k : Nat} (h : k < 0x10000000000000000) : count? (.int k) = some k := by
  rw [count?, uint64?, if_pos (by omega), Int.toNat_natCast, Option.map_some,
    UInt64.toNat_ofNat_of_lt' h]

theorem lt_of_count? {k l : Nat} (h : count? (.int k) = some l) : k < 0x10000000000000000 := by
  rw [count?, uint64?] at h
  split at h
  · omega
  · exact absurd h (by simp)

end Json

/-! ## 2. Models -/

namespace Bindings

variable {α : Type}

/-- Names that increase are put in one after the other, and none over another. -/
theorem find?_foldl_insert {l : List (String × α)} (hl : Increasing l) (b : Bindings α)
    (name : String) : (l.foldl (fun b p => b.insert p.1 p.2) b).find? name
      = (findEntry name l).or (b.find? name) := by
  induction l generalizing b with
  | nil => rfl
  | cons p l ih =>
    obtain ⟨hp, hl⟩ := List.pairwise_cons.mp hl
    rw [List.foldl_cons, ih hl, find?_insert, findEntry]
    by_cases hname : name = p.1
    · rw [if_pos hname, if_pos hname, findEntry_of_forall_lt (hname ▸ hp)]
      rfl
    · rw [if_neg hname, if_neg hname]

/-- Bindings are those of their pairs. -/
theorem ofList_entries (b : Bindings α) : ofList b.entries = b := by
  refine ext_find? fun name => ?_
  rw [ofList, find?_foldl_insert b.increasing, find?_empty, Option.or_none]
  rfl

end Bindings

theorem Constant.fits_toJson (c : Constant) : c.toJson.Fits 0 :=
  ⟨c.isExact_toJson, by cases c <;> exact Nat.le_refl 0⟩

/-- **A model is read back**, each constant by what it looks like. -/
theorem Assignment.ofJson?_toJson (env : Assignment) : ofJson? env.toJson = some env := by
  rw [toJson, ofJson?, mapM_map_eq_some]
  · rw [Option.bind_eq_bind, Option.bind_some, Bindings.ofList_entries]
    rfl
  · intro p
    simp [Constant.ofJson?_toJson]

theorem Assignment.fits_toJson (env : Assignment) : env.toJson.Fits 1 := by
  refine Json.fits_obj fun f hf => ?_
  obtain ⟨p, -, rfl⟩ := List.mem_map.mp hf
  exact p.2.fits_toJson

/-! ## 3. Outcomes -/

theorem Reason.ofJson?_toJson (reason : Reason) : Reason.ofJson? reason.toJson = some reason := by
  cases reason <;> rfl

theorem Reason.fits_toJson (reason : Reason) : reason.toJson.Fits 1 := by
  cases reason <;> exact Json.fits_obj (by simp [Json.fits_str])

namespace Outcome

/-- **An outcome is read back from its fields.** -/
theorem ofFields?_fields (o : Outcome) : ofFields? o.fields = some o := by
  cases o with
  | sat model =>
    have htag : tagIndex? outcomeNames (.str "SAT") = some 0 := rfl
    simp [ofFields?, fields, Json.field?, htag, model.ofJson?_toJson]
  | unsat => rfl
  | unknown reason =>
    have htag : tagIndex? outcomeNames (.str "UNKNOWN") = some 2 := rfl
    simp [ofFields?, fields, Json.field?, htag, reason.ofJson?_toJson]

theorem fits_fields (o : Outcome) : ∀ f ∈ o.fields, f.2.Fits 1 := by
  cases o with
  | sat model => simp [fields, Json.fits_str, model.fits_toJson]
  | unsat => simp [fields, Json.fits_str]
  | unknown reason => simp [fields, Json.fits_str, reason.fits_toJson]

/-- No field of an outcome has the name of one of the verdict's. -/
theorem names_fields (o : Outcome) : ∀ f ∈ o.fields, f.1 ∉ ["site", "value", "matched"] := by
  cases o <;> simp [fields]

end Outcome

/-! ## 4. Verdicts -/

theorem PatternMatch.ofJson?_obj (pattern template : String) {index : Json} {alternative : UInt64}
    (h : index.uint64? = some alternative) :
    PatternMatch.ofJson? (.obj [("pattern", .str pattern), ("template", .str template),
      ("alternative", index)]) = some ⟨pattern, template, alternative⟩ := by
  simp [PatternMatch.ofJson?, Json.record?_obj, Json.str?, h]

theorem PatternMatch.ofJson?_toJson (m : PatternMatch) : PatternMatch.ofJson? m.toJson = some m :=
  PatternMatch.ofJson?_obj m.pattern m.template (Json.uint64?_ofUInt64 m.alternative)

theorem PatternMatch.fits_toJson (m : PatternMatch) : m.toJson.Fits 1 :=
  Json.fits_obj (List.forall_mem_cons.mpr ⟨Json.fits_str _, List.forall_mem_cons.mpr
    ⟨Json.fits_str _, List.forall_mem_singleton.mpr ⟨Json.isExact_ofUInt64 _, Nat.le_refl 0⟩⟩⟩)

theorem SiteId.fits_toJson (id : SiteId) : id.toJson.Fits 1 :=
  ⟨id.isExact_toJson, Nat.le_refl 1⟩

namespace Verdict

/-- **The fields of an outcome are told from those of its verdict**, whatever they are, as long as
they have other names. -/
theorem ofJson?_obj {site : Json} {id : SiteId} (value : String) {fields : List (String × Json)}
    {outcome : Outcome} {match? : Option Json} {matched : Option PatternMatch}
    (hsite : SiteId.ofJson? site = some id) (houtcome : Outcome.ofFields? fields = some outcome)
    (hreadable : Json.fieldsReadable fields = true)
    (hnames : ∀ f ∈ fields, f.1 ∉ ["site", "value", "matched"])
    (hmatched : matchOfJson? match? = some matched) :
    ofJson? (.obj ([("site", site), ("value", .str value)] ++ fields ++
      (match?.map fun j => ("matched", j)).toList)) = some ⟨id, value, outcome, matched⟩ := by
  have hne : ∀ name ∈ ["site", "value", "matched"], ∀ f ∈ fields, f.1 ≠ name := by
    rintro name hname f hf rfl
    exact hnames f hf hname
  have hkeep : fields.filter (fun f => f.1 ∉ ["site", "value", "matched"]) = fields :=
    List.filter_eq_self.mpr fun f hf => decide_eq_true (hnames f hf)
  have hothers : ([("site", site), ("value", Json.str value)] ++ fields ++
      (match?.map fun j => ("matched", j)).toList).filter
        (fun f => f.1 ∉ ["site", "value", "matched"]) = fields := by
    rw [List.filter_append, List.filter_append, hkeep]
    cases match? <;> simp
  rw [ofJson?, Json.field?_append_of_ne _ _ (hne "site" (by simp)),
    Json.field?_append_of_ne _ _ (hne "value" (by simp)),
    Json.field?_append_of_ne _ _ (hne "matched" (by simp)), hothers]
  have hown : Json.field? "matched" ([("site", site), ("value", .str value)] ++
      (match?.map fun j => ("matched", j)).toList) = some match? := by
    cases match? <;> simp [Json.field?]
  rw [hown]
  cases match? <;> simp [Json.field?, Json.str?, hreadable, hsite, houtcome, hmatched]

/-- A verdict as it is written, with its match as an optional document. -/
theorem toJson_eq (v : Verdict) :
    v.toJson = .obj ([("site", v.site.toJson), ("value", .str v.value)] ++ v.outcome.fields ++
      ((v.matched.map PatternMatch.toJson).map fun j => ("matched", j)).toList) := by
  unfold toJson
  cases v.matched <;> rfl

theorem matchOfJson?_obj (fields : List (String × Json)) :
    matchOfJson? (some (.obj fields)) = (PatternMatch.ofJson? (.obj fields)).map some := rfl

theorem matchOfJson?_map (matched : Option PatternMatch) :
    matchOfJson? (matched.map PatternMatch.toJson) = some matched := by
  cases matched with
  | none => rfl
  | some m =>
    calc matchOfJson? (some m.toJson)
        = (PatternMatch.ofJson? m.toJson).map some := matchOfJson?_obj _
      _ = some (some m) := by rw [m.ofJson?_toJson, Option.map_some]

/-- **A verdict is read back.** -/
theorem ofJson?_toJson (v : Verdict) : ofJson? v.toJson = some v := by
  have hreadable : Json.fieldsReadable v.outcome.fields = true :=
    Json.isReadable_of_isExact (Json.fits_obj v.outcome.fits_fields).isExact
  rw [toJson_eq]
  exact ofJson?_obj v.value v.site.ofJson?_toJson v.outcome.ofFields?_fields hreadable
    v.outcome.names_fields (matchOfJson?_map v.matched)

theorem fits_toJson (v : Verdict) : v.toJson.Fits 2 := by
  rw [toJson_eq]
  refine Json.fits_obj (List.forall_mem_append.mpr ⟨List.forall_mem_append.mpr
    ⟨?_, v.outcome.fits_fields⟩, ?_⟩)
  · exact List.forall_mem_cons.mpr ⟨v.site.fits_toJson, List.forall_mem_singleton.mpr
      (Json.fits_str _)⟩
  · cases v.matched with
    | none => simp
    | some m => exact List.forall_mem_singleton.mpr m.fits_toJson

end Verdict

/-! ## 5. Documents -/

namespace Summary

theorem ofJson?_obj {a b c d : Json} {total sat unsat unknown : Nat} (ha : a.count? = some total)
    (hb : b.count? = some sat) (hc : c.count? = some unsat) (hd : d.count? = some unknown) :
    ofJson? (.obj [("total", a), ("sat", b), ("unsat", c), ("unknown", d)])
      = some ⟨total, sat, unsat, unknown⟩ := by
  simp [ofJson?, Json.record?_obj, ha, hb, hc, hd]

theorem total_of_ofJson? {a b c d : Json} {s : Summary}
    (h : ofJson? (.obj [("total", a), ("sat", b), ("unsat", c), ("unknown", d)]) = some s) :
    a.count? = some s.total := by
  simp only [ofJson?, Option.bind_eq_bind] at h
  simp [Json.record?_obj, Option.bind_eq_some_iff] at h
  obtain ⟨total, ha, _, -, _, -, _, -, rfl⟩ := h
  exact ha

end Summary

namespace Report

theorem count_le_total (r : Report) (p : Verdict → Bool) : r.verdicts.countP p ≤ r.summary.total :=
  List.countP_le_length

/-- The summary of a report is read back exactly if its verdicts can be counted in a word. -/
theorem ofJson?_summary_iff (r : Report) :
    Summary.ofJson? r.summary.toJson = some r.summary ↔
      r.verdicts.length < 0x10000000000000000 := by
  constructor
  · exact fun h => Json.lt_of_count? (Summary.total_of_ofJson? h)
  · intro hlength
    have hcount : ∀ p : Verdict → Bool, r.verdicts.countP p < 0x10000000000000000 :=
      fun p => Nat.lt_of_le_of_lt (r.count_le_total p) hlength
    exact Summary.ofJson?_obj (Json.count?_natCast hlength) (Json.count?_natCast (hcount _))
      (Json.count?_natCast (hcount _)) (Json.count?_natCast (hcount _))

theorem fits_summary {r : Report} (hlength : r.verdicts.length < 0x10000000000000000) :
    r.summary.toJson.Fits 1 := by
  have hfits : ∀ k : Nat, k ≤ r.verdicts.length → (Json.int k).Fits 0 := fun k hk =>
    ⟨Json.isExact_int (by omega), Nat.le_refl 0⟩
  have hcount : ∀ p : Verdict → Bool, (Json.int (r.verdicts.countP p)).Fits 0 :=
    fun p => hfits _ (r.count_le_total p)
  exact Json.fits_obj (List.forall_mem_cons.mpr ⟨hfits _ (Nat.le_refl _),
    List.forall_mem_cons.mpr ⟨hcount _, List.forall_mem_cons.mpr ⟨hcount _,
      List.forall_mem_singleton.mpr (hcount _)⟩⟩⟩)

end Report

namespace ReportDocument

theorem ofJson?_obj {version summary : Json} {verdicts : List Json} {n : UInt32} {s : Summary}
    {vs : List Verdict} (hversion : version.uint32? = some n)
    (hsummary : Summary.ofJson? summary = some s)
    (hverdicts : verdicts.mapM Verdict.ofJson? = some vs) :
    ofJson? (.obj [("version", version), ("summary", summary), ("verdicts", .arr verdicts)])
      = some ⟨n, s, vs⟩ := by
  simp [ofJson?, Json.record?_obj, Json.arr?, hversion, hsummary, hverdicts]

theorem summary_of_ofJson? {version summary verdicts : Json} {d : ReportDocument}
    (h : ofJson? (.obj [("version", version), ("summary", summary), ("verdicts", verdicts)])
      = some d) : Summary.ofJson? summary = some d.summary := by
  simp only [ofJson?, Option.bind_eq_bind] at h
  simp [Json.record?_obj, Option.bind_eq_some_iff] at h
  obtain ⟨n, -, s, hs, _, -, _, -, rfl⟩ := h
  exact hs

theorem ofJson?_ofReport {r : Report} (hlength : r.verdicts.length < 0x10000000000000000) :
    ofJson? (ofReport r).toJson = some ⟨formatVersion, r.summary, r.verdicts⟩ :=
  ofJson?_obj (Json.uint32?_ofUInt32 formatVersion) (r.ofJson?_summary_iff.mpr hlength)
    (mapM_map_eq_some Verdict.ofJson?_toJson r.verdicts)

/-- However many verdicts there are, at most four brackets are open at once. -/
theorem fits_ofReport {r : Report} (hlength : r.verdicts.length < 0x10000000000000000) :
    (ofReport r).toJson.Fits 4 := by
  refine Json.fits_obj (List.forall_mem_cons.mpr ⟨?_, List.forall_mem_cons.mpr ⟨?_,
    List.forall_mem_singleton.mpr ?_⟩⟩)
  · exact ⟨Json.isExact_ofUInt32 _, Nat.zero_le 3⟩
  · exact (Report.fits_summary hlength).mono (by decide)
  · refine Json.fits_arr fun j hj => ?_
    obtain ⟨v, -, rfl⟩ := List.mem_map.mp hj
    exact v.fits_toJson

/-- **Reports are read back.**  Every verdict is decoded from its encoding, whatever its outcome is
and with or without a match.  So the document of a report gives back the version, the summary and
the verdicts in order, from its encoding and from its text.  The counts of a document are words, and
a report that has too many verdicts to be counted in one, as no memory holds, is the only one that
would not be read back. -/
theorem reports_read_back (r : Report) :
    (∀ v : Verdict, Verdict.ofJson? v.toJson = some v) ∧
    (ofJson? (ofReport r).toJson = some ⟨1, r.summary, r.verdicts⟩ ↔
      r.verdicts.length < 0x10000000000000000) ∧
    (r.verdicts.length < 0x10000000000000000 →
      read (ofReport r).write = .ok ⟨1, r.summary, r.verdicts⟩) := by
  refine ⟨Verdict.ofJson?_toJson, ⟨fun h => ?_, ofJson?_ofReport⟩, fun hlength => ?_⟩
  · exact r.ofJson?_summary_iff.mp (summary_of_ofJson? h)
  · have hfits := fits_ofReport hlength
    have hdepth : (ofReport r).toJson.depth ≤ nestingLimit :=
      Nat.le_trans hfits.depth_le (by decide)
    rw [read, write, Json.read?_write hfits.isExact hdepth, Option.bind_some,
      ofJson?_ofReport hlength]
    rfl

/-- A report with every outcome, constants of every sort, and a variable that is called like a field
of the verdict. -/
def mixedReport : Report where
  verdicts := [
    ⟨⟨"fs::write", 1, "src/io.rs:4:2"⟩, "\"a\\\n\"", .sat (.ofList [("matched", .str "null"),
      ("n", .int (-9223372036854775808)), ("result", .bool true)]), some ⟨"mem", "/proc/*", 2⟩⟩,
    ⟨⟨"fs::write", 0, ""⟩, "é", .unsat, none⟩,
    ⟨⟨"system", 0, "a"⟩, "x", .unknown .timeout, some ⟨"rm", "rm *", 0⟩⟩,
    ⟨⟨"system", 0, "b"⟩, "x", .unknown (.declined "timeout"), none⟩]

theorem reports_read_back_mixedReport :
    mixedReport.verdicts.length < 0x10000000000000000 ∧
      read (ofReport mixedReport).write = .ok ⟨1, ⟨4, 1, 1, 2⟩, mixedReport.verdicts⟩ := by
  have hlength : mixedReport.verdicts.length < 0x10000000000000000 := by decide
  exact ⟨hlength, (reports_read_back mixedReport).2.2 hlength⟩

end ReportDocument

end SinkReach
