/-
# Configurations in layers

A configuration is put together from three LAYERS: a preset, a document that gives some of the
settings, and the flags of a run.  Each layer replaces some fields of the one below, and there are
two checks on the way, of what the document describes and of what the flags make of it.

`Settings.layered` says field by field which layer counts.  The code gets there in steps, each of
which rebuilds the whole configuration, and is compared with it:

* `Document.load_ofConfig`: a document that writes a configuration out leaves nothing to the preset,
  so it describes that configuration, and is refused for the faults of that configuration only;
* `Settings.resolve_file_eq_ok_iff`: a run with a configuration file gets the layered configuration,
  if that passes its check and so does the one without the flags.  Flags do not mend a document.
-/
import SinkReach.Config.Writer
import SinkReach.Proofs.WellSorted
import SinkReach.Settings

namespace SinkReach

open Config (Document)

/-! ## 1. Documents -/

theorem Preset.ofName_eq_ok_iff {s : String} {p : Preset} :
    Preset.ofName s = .ok p ↔ s.toLower = p.name := by
  unfold Preset.ofName
  split <;> cases p <;> simp_all [Preset.name]

theorem Preset.toLower_name (p : Preset) : p.name.toLower = p.name := by
  cases p <;> decide +kernel

namespace Config.Document

variable {d : Document} {p : Preset} {text : String}

/-- The text is read as the document. -/
def ReadFrom (d : Document) (text : String) : Prop :=
  (Yaml.Document.read? text).bind ofYaml? = some d

instance (d : Document) (text : String) : Decidable (d.ReadFrom text) :=
  inferInstanceAs (Decidable (_ = some d))

/-- A text is loaded as the document that it is read as. -/
theorem ReadFrom.read_eq (h : d.ReadFrom text) : Config.read text = d.load := by
  unfold ReadFrom at h
  simp only [Config.read, h]

/-- The document is of the version that is understood and lies over the preset, which it names in
any case, or does not name if it is the standard one. -/
structure Over (d : Document) (p : Preset) : Prop where
  version : d.version = some 1
  preset : d.preset.elim (p = .standard) (·.toLower = p.name)

theorem Over.checkVersion_eq (h : d.Over p) : d.checkVersion = .ok () := by
  rw [checkVersion, h.version]
  rfl

theorem Over.presetOf_eq (h : d.Over p) : d.presetOf = .ok p := by
  have hpreset := h.preset
  unfold presetOf
  cases hname : d.preset with
  | none =>
    rw [hname] at hpreset
    exact congrArg Except.ok hpreset.symm
  | some name =>
    rw [hname] at hpreset
    exact Preset.ofName_eq_ok_iff.mpr hpreset

/-- Loading a document over a preset is checking the configuration that it describes. -/
theorem Over.load_eq (h : d.Over p) :
    d.load = (d.resolve p).validate.map fun _ => d.resolve p := by
  simp only [load, h.checkVersion_eq, h.presetOf_eq, bind, Except.bind]
  cases (d.resolve p).validate <;> rfl

theorem over_ofConfig (c : Config) : (ofConfig c).Over c.preset := ⟨rfl, c.preset.toLower_name⟩

/-- **A configuration written out in full is the one that is loaded**, if it passes its check, and
is refused as it is itself if not: the settings of the preset are all replaced. -/
theorem load_ofConfig (c : Config) : (ofConfig c).load = c.validate.map fun _ => c :=
  -- every `getD` of `resolve` finds a value, so `(ofConfig c).resolve c.preset` computes to `c`
  (over_ofConfig c).load_eq

end Config.Document

/-! ## 2. The layers -/

namespace Settings

variable {s : Settings} {d : Document} {p : Preset} {t : FileTree} {c : Config}

/-- The configuration of three layers.  The flags come first for the time and the workers, then
the document, and what neither of them gives is that of the preset. -/
def layered (s : Settings) (d : Document) (p : Preset) : Config :=
  let base := Config.ofPreset p
  { preset := p
    solver :=
      { timeoutMs := (s.timeoutMs?.or (d.solver.bind (·.timeoutMs))).getD base.solver.timeoutMs
        seed := (d.solver.bind (·.seed)).getD base.solver.seed
        intMode := (d.solver.bind (·.intMode)).getD base.solver.intMode
        intWidth := (d.solver.bind (·.intWidth)).getD base.solver.intWidth }
    parallel := ⟨(s.workers?.or (d.parallel.map (·.workers))).getD base.parallel.workers⟩
    patterns := d.patterns.getD base.patterns }

/-- Without flags there are the document and the preset. -/
theorem layered_none (d : Document) (p : Preset) : layered {} d p = d.resolve p := by
  rcases d with ⟨_, _, _ | solver, _ | parallel, patterns⟩ <;> rfl

/-- Without flags and with nothing in the document there is the preset. -/
theorem layered_empty (p : Preset) : layered {} {} p = Config.ofPreset p := rfl

/-- **The flags replace the time and the workers, and nothing else.** -/
theorem override_layered (s : Settings) (d : Document) (p : Preset) :
    s.override (layered {} d p) = s.layered d p := by
  rcases s with ⟨_, _, _ | workers, _ | ms⟩ <;> rfl

/-! ## 3. The configuration of a run -/

/-- A run takes what the flags make of its base, if that passes its check. -/
theorem resolve_eq_ok_iff : s.resolve t = .ok c ↔
    ∃ b, s.base t = .ok b ∧ (s.override b).validate = .ok () ∧ c = s.override b := by
  constructor
  · intro h
    obtain ⟨b, hbase, h⟩ := bind_eq_ok.mp h
    dsimp only at h
    split at h
    · next hvalid => exact ⟨b, hbase, hvalid, (Except.ok.inj h).symm⟩
    · cases h
  · rintro ⟨b, hbase, hvalid, rfl⟩
    refine bind_eq_ok.mpr ⟨b, hbase, ?_⟩
    simp only [hvalid]
    rfl

/-- A run takes the layered configuration, if that passes its check, wherever the base is that of
the document and the preset. -/
theorem resolve_eq_ok_iff_of_base {P : Prop}
    (hbase : ∀ b, s.base t = .ok b ↔ P ∧ b = layered {} d p) :
    s.resolve t = .ok c ↔ (P ∧ (s.layered d p).validate = .ok ()) ∧ c = s.layered d p := by
  rw [resolve_eq_ok_iff]
  constructor
  · rintro ⟨b, hb, hvalid, rfl⟩
    obtain ⟨hP, rfl⟩ := (hbase b).mp hb
    rw [override_layered] at hvalid ⊢
    exact ⟨⟨hP, hvalid⟩, rfl⟩
  · rintro ⟨⟨hP, hvalid⟩, rfl⟩
    refine ⟨_, (hbase _).mpr ⟨hP, rfl⟩, ?_⟩
    rw [override_layered]
    exact ⟨hvalid, rfl⟩

/-- **A run with a file gets the layered configuration**, if that passes its check and the document
by itself does. -/
theorem resolve_file_eq_ok_iff {path text : String} (hfile : s.file? = some path)
    (hread : t.read path = .ok text) (htext : d.ReadFrom text) (hd : d.Over p) :
    s.resolve t = .ok c ↔
      ((layered {} d p).validate = .ok () ∧ (s.layered d p).validate = .ok ()) ∧
        c = s.layered d p := by
  have hload : Config.load t path = (layered {} d p).validate.map fun _ => layered {} d p := by
    rw [layered_none, ← hd.load_eq, ← htext.read_eq, Config.load, hread]
  refine resolve_eq_ok_iff_of_base fun b => ?_
  rw [base, hfile]
  simp only [hload]
  cases (layered {} d p).validate with
  | error e => simp [Except.map]
  | ok => simp [Except.map, eq_comm]

/-- A run without a file has the preset of its flags, and an empty document over it. -/
theorem resolve_preset_eq_ok_iff (hfile : s.file? = none) (hp : p = s.preset?.getD .standard) :
    s.resolve t = .ok c ↔ (s.layered {} p).validate = .ok () ∧ c = s.layered {} p := by
  have hbase (b : Config) : s.base t = .ok b ↔ True ∧ b = layered {} {} p := by
    rw [base, hfile, layered_empty, hp]
    simp [eq_comm]
  rw [resolve_eq_ok_iff_of_base hbase, true_and]

end Settings

/-- **Writing a configuration out and putting one together from layers agree.**  A configuration
that is written out is loaded as it was, or refused for its own fault, and so is its text where that
is read as the document that was written.  A run with a file has a configuration just if the
document passes its check and what the flags make of it passes too, and then has the layered one;
a run without a file has that of its preset and its flags. -/
theorem Config.export_agrees_with_layers :
    (∀ c : Config,
      (c.validate = .ok () → (Document.ofConfig c).load = .ok c) ∧
      (∀ e, c.validate = .error e → (Document.ofConfig c).load = .error e) ∧
      ((Document.ofConfig c).ReadFrom c.write →
        Config.read c.write = (Document.ofConfig c).load)) ∧
    (∀ (s : Settings) (t : FileTree) (path text : String) (d : Document) (p : Preset),
      s.file? = some path → t.read path = .ok text → d.ReadFrom text → d.Over p →
      ∀ c, s.resolve t = .ok c ↔
        ((Settings.layered {} d p).validate = .ok () ∧ (s.layered d p).validate = .ok ()) ∧
          c = s.layered d p) ∧
    (∀ (s : Settings) (t : FileTree) (p : Preset),
      s.file? = none → p = s.preset?.getD .standard →
      ∀ c, s.resolve t = .ok c ↔ (s.layered {} p).validate = .ok () ∧ c = s.layered {} p) := by
  refine ⟨fun c => ⟨fun hvalid => ?_, fun e hfault => ?_, fun hread => hread.read_eq⟩, ?_, ?_⟩
  · rw [Document.load_ofConfig, hvalid]
    rfl
  · rw [Document.load_ofConfig, hfault]
    rfl
  · intro s t path text d p hfile hread htext hd c
    exact Settings.resolve_file_eq_ok_iff hfile hread htext hd
  · intro s t p hfile hp c
    exact Settings.resolve_preset_eq_ok_iff hfile hp

/-- A configuration that has nothing of the settings of its preset. -/
def Config.wrapped : Config := ⟨.fast, ⟨200, 42, .wrapping, 32⟩, ⟨2⟩, []⟩

/-- A document that gives the seed and a time. -/
def Config.Document.seeded : Document :=
  { version := some 1, preset := some "Thorough",
    solver := some { timeoutMs := some 200, seed := some 7 } }

def Config.Document.seededText : String :=
  "version: 1\npreset: Thorough\nsolver:\n  timeout_ms: 200\n  seed: 7\n"

/-- A configuration of its own is written, read and loaded, and with no time for the solver is
refused.  A flag replaces the time of a document, whose seed and preset stay. -/
theorem Config.export_agrees_with_layers_seeded :
    Config.read Config.wrapped.write = .ok Config.wrapped ∧
    (∃ e, (Document.ofConfig (Config.wrapped.withTimeout 0)).load = .error e) ∧
    Settings.resolve { file? := some "c.yaml", timeoutMs? := some 900 }
        { entries := [(["c.yaml"], .file Document.seededText)] } =
      .ok ⟨.thorough, ⟨900, 7, .unbounded, 64⟩, ⟨0⟩, standardPatterns⟩ ∧
    Settings.resolve { workers? := some 3 } {} =
      .ok ⟨.balanced, ⟨5000, 0, .unbounded, 64⟩, ⟨3⟩, standardPatterns⟩ := by
  obtain ⟨hexport, hfile, hpreset⟩ := Config.export_agrees_with_layers
  refine ⟨?_, ?_, ?_, ?_⟩
  · obtain ⟨hvalid, -, hread⟩ := hexport Config.wrapped
    exact (hread (by decide +kernel)).trans (hvalid (by with_unfolding_all rfl))
  · exact ⟨_, (hexport _).2.1 _ (by with_unfolding_all rfl)⟩
  · have hname : "Thorough".toLower = "thorough" := by decide +kernel
    refine (hfile _ _ "c.yaml" Document.seededText Document.seeded .thorough rfl
      (by with_unfolding_all rfl) (by decide +kernel) ⟨rfl, hname⟩ _).mpr ⟨⟨?_, ?_⟩, rfl⟩
    · with_unfolding_all rfl
    · with_unfolding_all rfl
  · refine (hpreset _ _ .balanced rfl rfl _).mpr ⟨?_, rfl⟩
    with_unfolding_all rfl

end SinkReach
