/-
# When the construction of alternatives fails

Of a string whose variables have one sort each, with those of the path, the construction of the
alternatives has one thing left that can go wrong: a fresh name is TAKEN, because a variable of the
value or of the path has it.  It then stops at that name (`Pattern.alternatives_cases`); otherwise
what it gives is well-sorted (`Pattern.check_alternativesOf`) and brings in no variables but strings
of fresh names (`Pattern.occurrences_alternativesOf`).

The construction is a chain of steps that may each refuse a name.  `Pattern.Builds` says what such
a chain comes to, and `Builds.bind` puts two of them together; the sorts are in order by then.
-/
import SinkReach.Proofs.Canonical.Sorts
import SinkReach.Proofs.Pattern.Matching

namespace SinkReach

/-! ## 1. Checked constructors on strings -/

theorem Value.checkParts_of_forall {vs : List Value} (h : ∀ v ∈ vs, v.sort = .ok .string)
    (index : Nat) : Value.checkParts index vs = .ok () := by
  induction vs generalizing index with
  | nil => rfl
  | cons v vs ih =>
    obtain ⟨hv, hvs⟩ := List.forall_mem_cons.mp h
    exact bind_eq_ok.mpr ⟨.string, hv, by rw [if_pos rfl]; exact ih hvs (index + 1)⟩

theorem Value.mkConcat_of_forall {vs : List Value} (h : ∀ v ∈ vs, v.sort = .ok .string) :
    Value.mkConcat vs = .ok (.concat vs) :=
  bind_eq_ok.mpr ⟨(), Value.checkParts_of_forall h 0, rfl⟩

theorem Guard.check_eq_of_strings {l r : Value} (hl : l.sort = .ok .string)
    (hr : r.sort = .ok .string) : (Guard.compare .eq l r).check = .ok () :=
  Guard.check_compare_eq_ok.mpr ⟨.string, hl, hr, fun _ => rfl⟩

theorem Guard.mkCompare_of_strings {l r : Value} (hl : l.sort = .ok .string)
    (hr : r.sort = .ok .string) : Guard.mkCompare .eq l r = .ok (.compare .eq l r) :=
  bind_eq_ok.mpr ⟨(), Guard.check_eq_of_strings hl hr, rfl⟩

namespace Pattern

variable {p : Pattern} {v : Value} {path : Guard} {taken : Declarations} {names : List String}

/-! ## 2. Chains that may refuse a name -/

/-- The construction gives `a`, or stops at one of the names because it is taken. -/
def Builds {α : Type} (taken : Declarations) (names : List String) (x : Except SortFault α)
    (a : α) : Prop :=
  x = .ok a ∨ ∃ name ∈ names, taken.contains name = true ∧ x = .error (.reserved name)

theorem Builds.of_eq {α : Type} {x : Except SortFault α} {a : α} (h : x = .ok a) :
    Builds taken names x a := .inl h

/-- **Two steps in a row** stop where the first does, or where the second does. -/
theorem Builds.bind {α β : Type} {x : Except SortFault α} {f : α → Except SortFault β} {a : α}
    {b : β} (hx : Builds taken names x a) (hf : Builds taken names (f a) b) :
    Builds taken names (x >>= f) b := by
  rcases hx with rfl | ⟨name, hname, htaken, rfl⟩
  · exact hf
  · exact .inr ⟨name, hname, htaken, rfl⟩

theorem builds_fresh {role : String} {k : Nat} (h : p.freshName role k ∈ names) :
    Builds taken names (p.fresh taken role k) (.stringVar (p.freshName role k)) := by
  unfold fresh
  dsimp only
  split
  · next htaken => exact .inr ⟨_, h, htaken, rfl⟩
  · exact .of_eq rfl

theorem builds_templateParts {t : Template} {k : Nat}
    (h : ∀ i < t.wildcards, p.freshName "w" (k + i) ∈ names) :
    Builds taken names (p.templateParts taken k t) (p.pieces k t) := by
  induction t generalizing k with
  | nil => exact .of_eq rfl
  | cons segment rest ih =>
    cases segment with
    | literal s =>
      rw [wildcards_literal] at h
      exact (ih h).bind (.of_eq rfl)
    | wildcard =>
      rw [wildcards_wildcard] at h
      have hrest : ∀ i < Template.wildcards rest, p.freshName "w" (k + 1 + i) ∈ names := by
        intro i hi
        have hnext := h (i + 1) (by omega)
        rwa [← Nat.add_assoc, Nat.add_right_comm] at hnext
      exact (builds_fresh (h 0 (by omega))).bind ((ih hrest).bind (.of_eq rfl))

/-! ## 3. Sorts -/

theorem sort_of_mem_pieces {t : Template} {k : Nat} :
    ∀ w ∈ p.pieces k t, w.sort = .ok .string := by
  induction t generalizing k with
  | nil => simp [pieces]
  | cons segment rest ih =>
    cases segment with
    | literal s => exact List.forall_mem_cons.mpr ⟨rfl, ih⟩
    | wildcard => exact List.forall_mem_cons.mpr ⟨rfl, ih⟩

/-- The parts a match can begin in are strings, if the value is. -/
theorem sort_of_mem_searchParts {part : Value} (hv : v.sort = .ok .string)
    (hpart : part ∈ searchParts v) : part.sort = .ok .string := by
  unfold searchParts at hpart
  split at hpart
  · obtain rfl := List.mem_singleton.mp hpart
    rfl
  · exact Value.sort_of_mem_topParts hv hpart

theorem sort_template : (Value.concat (p.pieces 0 p.template)).sort = .ok .string :=
  Value.sort_concat_of_forall sort_of_mem_pieces

/-- The two sides of the equations of an alignment, all of them strings. -/
theorem strings_of_alignment {k : Nat} {after : List Value}
    (hafter : ∀ w ∈ after, w.sort = .ok .string) :
    (∀ w ∈ [Value.stringVar (p.freshName "pre" k), .stringVar (p.freshName "rest" k)],
        w.sort = .ok .string) ∧
      (∀ w ∈ Value.stringVar (p.freshName "rest" k) :: after, w.sort = .ok .string) ∧
      ∀ w ∈ [Value.concat (p.pieces 0 p.template), .stringVar (p.freshName "post" k)],
        w.sort = .ok .string := by
  refine ⟨?_, List.forall_mem_cons.mpr ⟨rfl, hafter⟩, ?_⟩
  · exact List.forall_mem_cons.mpr ⟨rfl, List.forall_mem_singleton.mpr rfl⟩
  · exact List.forall_mem_cons.mpr ⟨sort_template, List.forall_mem_singleton.mpr rfl⟩

theorem check_alignment {k : Nat} {part : Value} {after : List Value}
    (hpart : part.sort = .ok .string) (hafter : ∀ w ∈ after, w.sort = .ok .string) :
    (p.alignment k part after).check = .ok () := by
  obtain ⟨hcut, htail, hmatch⟩ := strings_of_alignment (p := p) (k := k) hafter
  refine Guard.checkAll_eq_ok.mpr (List.forall_mem_cons.mpr ⟨?_, List.forall_mem_singleton.mpr ?_⟩)
  · exact Guard.check_eq_of_strings hpart (Value.sort_concat_of_forall hcut)
  · exact Guard.check_eq_of_strings (Value.sort_concat_of_forall htail)
      (Value.sort_concat_of_forall hmatch)

/-- **Alternatives on a string are well-sorted.** -/
theorem check_alternativesOf {g : Guard} (hv : v.sort = .ok .string)
    (hg : g ∈ p.alternativesOf v) : g.check = .ok () := by
  unfold alternativesOf at hg
  split at hg
  · obtain rfl := List.mem_singleton.mp hg
    exact Guard.check_eq_of_strings hv sort_template
  · obtain ⟨k, hk⟩ := List.mem_iff_getElem?.mp hg
    rw [getElem?_alignmentsFrom, Option.map_eq_some_iff] at hk
    obtain ⟨part, hpart, rfl⟩ := hk
    exact check_alignment (sort_of_mem_searchParts hv (List.mem_of_getElem? hpart))
      fun w hw => sort_of_mem_searchParts hv (List.mem_of_mem_drop hw)

/-! ## 4. Variables -/

theorem occurrences_alignment {k : Nat} {part : Value} {after : List Value}
    {q : String × ValueSort} (hq : q ∈ (p.alignment k part after).occurrences) :
    q ∈ part.occurrences ∨ q ∈ Value.occurrencesIn after ∨
      (q.2 = .string ∧ ((∃ i < p.template.wildcards, q.1 = p.freshName "w" i) ∨
        q.1 ∈ [p.freshName "pre" k, p.freshName "rest" k, p.freshName "post" k])) := by
  simp only [alignment, Guard.occurrences, Guard.occurrencesIn, Value.occurrences,
    Value.occurrencesIn, Value.stringVar, List.append_nil, List.mem_append,
    List.mem_singleton] at hq
  rcases hq with (hq | rfl | rfl) | (rfl | hq) | hq | rfl
  · exact .inl hq
  · exact .inr (.inr ⟨rfl, .inr (by simp)⟩)
  · exact .inr (.inr ⟨rfl, .inr (by simp)⟩)
  · exact .inr (.inr ⟨rfl, .inr (by simp)⟩)
  · exact .inr (.inl hq)
  · obtain ⟨i, hi, rfl⟩ := occurrences_pieces hq
    exact .inr (.inr ⟨rfl, .inl ⟨i, hi, by rw [Nat.zero_add]⟩⟩)
  · exact .inr (.inr ⟨rfl, .inr (by simp)⟩)

/-- **What occurs in an alternative** occurs in the value, or is a fresh variable. -/
theorem occurrences_alternativesOf {g : Guard} {q : String × ValueSort}
    (hg : g ∈ p.alternativesOf v) (hq : q ∈ g.occurrences) :
    q ∈ v.occurrences ∨ (q.1 ∈ p.freshNames v ∧ q.2 = .string) := by
  unfold alternativesOf at hg
  split at hg
  · obtain rfl := List.mem_singleton.mp hg
    rcases List.mem_append.mp hq with hq | hq
    · exact .inl hq
    · obtain ⟨i, hi, rfl⟩ := occurrences_pieces hq
      exact .inr ⟨mem_freshNames.mpr (.inl ⟨i, hi, by rw [Nat.zero_add]⟩), rfl⟩
  · next hmode =>
    obtain ⟨k, hk⟩ := List.mem_iff_getElem?.mp hg
    rw [getElem?_alignmentsFrom, Nat.zero_add, Option.map_eq_some_iff] at hk
    obtain ⟨part, hpart, rfl⟩ := hk
    obtain ⟨hlt, -⟩ := List.getElem?_eq_some_iff.mp hpart
    rcases occurrences_alignment hq with hq | hq | ⟨hsort, hwild | hname⟩
    · exact .inl (occurrences_searchParts (List.mem_of_getElem? hpart) hq)
    · obtain ⟨w, hw, hq⟩ := Value.mem_occurrencesIn.mp hq
      exact .inl (occurrences_searchParts (List.mem_of_mem_drop hw) hq)
    · exact .inr ⟨mem_freshNames.mpr (.inl hwild), hsort⟩
    · exact .inr ⟨mem_freshNames.mpr (.inr ⟨hmode, k, hlt, hname⟩), hsort⟩

/-! ## 5. The whole construction -/

theorem builds_alignments {parts : List Value} {k : Nat}
    (hparts : ∀ w ∈ parts, w.sort = .ok .string)
    (hnames : ∀ i < parts.length, ∀ name ∈
      [p.freshName "pre" (k + i), p.freshName "rest" (k + i), p.freshName "post" (k + i)],
        name ∈ names) :
    Builds taken names (p.alignments taken (.concat (p.pieces 0 p.template)) k parts)
      (p.alignmentsFrom k parts) := by
  induction parts generalizing k with
  | nil => exact .of_eq rfl
  | cons part after ih =>
    obtain ⟨hpart, hafter⟩ := List.forall_mem_cons.mp hparts
    obtain ⟨hcut, htail, hmatch⟩ := strings_of_alignment (p := p) (k := k) hafter
    have hfresh := hnames 0 (by simp)
    have hlater : ∀ i < after.length, ∀ name ∈
        [p.freshName "pre" (k + 1 + i), p.freshName "rest" (k + 1 + i),
          p.freshName "post" (k + 1 + i)], name ∈ names := by
      intro i hi
      have hnext := hnames (i + 1) (by simpa using hi)
      rwa [← Nat.add_assoc, Nat.add_right_comm] at hnext
    -- Three names are asked for, and what is then built of them is well-sorted.
    refine (builds_fresh (hfresh _ (by simp))).bind ?_
    refine (builds_fresh (hfresh _ (by simp))).bind ?_
    refine (builds_fresh (hfresh _ (by simp))).bind ?_
    refine Builds.bind (.of_eq (Value.mkConcat_of_forall hcut)) ?_
    refine Builds.bind (.of_eq
      (Guard.mkCompare_of_strings hpart (Value.sort_concat_of_forall hcut))) ?_
    refine Builds.bind (.of_eq (Value.mkConcat_of_forall htail)) ?_
    refine Builds.bind (.of_eq (Value.mkConcat_of_forall hmatch)) ?_
    refine Builds.bind (.of_eq (Guard.mkCompare_of_strings (Value.sort_concat_of_forall htail)
      (Value.sort_concat_of_forall hmatch))) ?_
    exact (ih hafter hlater).bind (.of_eq rfl)

/-- The construction from the variables that are taken on, the value being a string. -/
def alternativesFrom (p : Pattern) (v : Value) (taken : Declarations) :
    Except SortFault (List Guard) := do
  let template ← p.templateValue taken
  match p.mode with
  | .exact => return [← Guard.mkCompare .eq v template]
  | .contains => p.alignments taken template 0 (searchParts v)

/-- Of the path the construction uses only which variables it has. -/
theorem alternatives_eq_alternativesFrom (hv : v.sort = .ok .string)
    (htaken : Declarations.declareAll .empty (v.occurrences ++ path.occurrences) = .ok taken) :
    p.alternatives v path = p.alternativesFrom v taken := by
  rw [Declarations.declareAll_append] at htaken
  obtain ⟨mid, hmid, htaken⟩ := bind_eq_ok.mp htaken
  have hvars : v.collectVars .empty = .ok mid := hmid
  have hpath : path.collectVars mid = .ok taken := htaken
  unfold alternatives
  rw [hv]
  change (do
    let taken ← v.collectVars .empty
    let taken ← path.collectVars taken
    p.alternativesFrom v taken) = _
  rw [hvars]
  change (do
    let taken ← path.collectVars mid
    p.alternativesFrom v taken) = _
  rw [hpath]
  rfl

theorem builds_alternativesFrom (taken : Declarations) (hv : v.sort = .ok .string) :
    Builds taken (p.freshNames v) (p.alternativesFrom v taken) (p.alternativesOf v) := by
  have hwild : ∀ i < p.template.wildcards, p.freshName "w" (0 + i) ∈ p.freshNames v :=
    fun i hi => mem_freshNames.mpr (.inl ⟨i, hi, by rw [Nat.zero_add]⟩)
  refine Builds.bind ((builds_templateParts hwild).bind
    (.of_eq (Value.mkConcat_of_forall sort_of_mem_pieces))) ?_
  unfold alternativesOf
  cases hmode : p.mode with
  | exact => exact .of_eq (bind_eq_ok.mpr ⟨_, Guard.mkCompare_of_strings hv sort_template, rfl⟩)
  | contains =>
    refine builds_alignments (fun w hw => sort_of_mem_searchParts hv hw) fun i hi name hname => ?_
    exact mem_freshNames.mpr (.inr ⟨hmode, i, hi, by simpa using hname⟩)

/-- **The two ways in which the construction ends** on a string whose variables have one sort each,
with those of the path: the alternatives, or the name at which it stopped. -/
theorem alternatives_cases (hv : v.sort = .ok .string)
    (hvars : Declarations.OneSorted (v.occurrences ++ path.occurrences)) :
    p.alternatives v path = .ok (p.alternativesOf v) ∨
      ∃ name ∈ p.freshNames v, (∃ s, (name, s) ∈ v.occurrences ++ path.occurrences) ∧
        p.alternatives v path = .error (.reserved name) := by
  obtain ⟨taken, htaken⟩ := Declarations.exists_declareAll_empty_iff.mpr hvars
  rw [alternatives_eq_alternativesFrom hv htaken]
  rcases builds_alternativesFrom taken hv with hok | ⟨name, hname, hmem, herror⟩
  · exact .inl hok
  · obtain ⟨s, hs⟩ := Option.isSome_iff_exists.mp hmem
    exact .inr ⟨name, hname, ⟨s, (Declarations.declareAll_empty htaken).mp hs⟩, herror⟩

/-- **When the construction fails**: exactly if a fresh name is a variable already. -/
theorem alternatives_error_iff (hv : v.sort = .ok .string)
    (hvars : Declarations.OneSorted (v.occurrences ++ path.occurrences)) :
    (∃ e, p.alternatives v path = .error e) ↔
      ∃ name ∈ p.freshNames v, ∃ s, (name, s) ∈ v.occurrences ++ path.occurrences := by
  constructor
  · rintro ⟨e, he⟩
    rcases alternatives_cases (p := p) hv hvars with hok | ⟨name, hname, hocc, -⟩
    · exact absurd (he.symm.trans hok) (by simp)
    · exact ⟨name, hname, hocc⟩
  · rintro ⟨name, hname, s, hs⟩
    rcases alternatives_cases (p := p) hv hvars with hok | ⟨other, -, -, herror⟩
    · obtain ⟨-, -, hfree⟩ := alternatives_eq_ok hok
      exact absurd hname (hfree _ hs)
    · exact ⟨_, herror⟩

end Pattern

end SinkReach
