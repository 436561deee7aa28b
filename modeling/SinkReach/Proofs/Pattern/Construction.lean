/-
# What the construction of alternatives builds

A pattern is turned into guards over a value, its ALTERNATIVES.  They mention fresh variables, one
for each wildcard and, where the match may begin anywhere, three for each part it may begin in.
The construction checks sorts and names as it goes, and so may fail; this file says what it has
built when it does not.

* `Pattern.freshName_injective`, `Pattern.freshName_ne`: no two of the fresh names are the same.
* `Pattern.alternatives_eq_ok`: a construction that succeeds has built `Pattern.alternativesOf`,
  which checks nothing, and no fresh name is a variable of the value or of the path.
-/
import SinkReach.Pattern.Alternatives
import SinkReach.Proofs.Declarations
import SinkReach.Proofs.Numeral

namespace SinkReach.Pattern

/-! ## 1. Fresh names -/

theorem append_toString_of_freshName {p : Pattern} {r r' : String} {i j : Nat}
    (h : p.freshName r i = p.freshName r' j) : r ++ toString i = r' ++ toString j := by
  simpa [freshName, String.append_assoc] using h

/-- Within one role the number tells the names apart. -/
theorem freshName_injective {p : Pattern} {r : String} {i j : Nat}
    (h : p.freshName r i = p.freshName r j) : i = j :=
  Text.toString_injective ((String.append_right_inj r).mp (append_toString_of_freshName h))

/-- What a fresh variable may be for. -/
def roles : List String := ["w", "pre", "rest", "post"]

/-- No role goes on into another, so names of different roles differ whatever their numbers. -/
theorem freshName_ne {p : Pattern} {r r' : String} (hr : r ∈ roles) (hr' : r' ∈ roles)
    (hne : r ≠ r') (i j : Nat) : p.freshName r i ≠ p.freshName r' j := by
  intro h
  have hchars := congrArg String.toList (append_toString_of_freshName h)
  simp only [roles, List.mem_cons, List.not_mem_nil, or_false] at hr hr'
  rcases hr with rfl | rfl | rfl | rfl <;> rcases hr' with rfl | rfl | rfl | rfl <;>
    simp at hchars hne

/-- The fresh variables of a pattern on a value: one for each wildcard and, where the match may
begin anywhere, three for each part it may begin in. -/
def freshNames (p : Pattern) (v : Value) : List String :=
  (List.range p.template.wildcards).map (p.freshName "w") ++
    match p.mode with
    | .exact => []
    | .contains => (List.range (searchParts v).length).flatMap fun k =>
        [p.freshName "pre" k, p.freshName "rest" k, p.freshName "post" k]

theorem mem_freshNames {p : Pattern} {v : Value} {name : String} :
    name ∈ p.freshNames v ↔ (∃ i < p.template.wildcards, name = p.freshName "w" i) ∨
      (p.mode = .contains ∧ ∃ k < (searchParts v).length,
        name ∈ [p.freshName "pre" k, p.freshName "rest" k, p.freshName "post" k]) := by
  unfold freshNames
  rw [List.mem_append]
  refine or_congr ?_ ?_
  · simp [eq_comm]
  · cases p.mode <;> simp

/-! ## 2. The alternatives, without the checks -/

/-- The pieces of a template as values, the wildcards counted from `k`. -/
def pieces (p : Pattern) (k : Nat) : Template → List Value
  | [] => []
  | .literal s :: rest => .str s :: p.pieces k rest
  | .wildcard :: rest => .stringVar (p.freshName "w" k) :: p.pieces (k + 1) rest

/-- The match begins in the given part, the `k`-th. -/
def alignment (p : Pattern) (k : Nat) (part : Value) (after : List Value) : Guard :=
  let pre := .stringVar (p.freshName "pre" k)
  let rest := .stringVar (p.freshName "rest" k)
  let post := .stringVar (p.freshName "post" k)
  .all [.compare .eq part (.concat [pre, rest]),
    .compare .eq (.concat (rest :: after)) (.concat [.concat (p.pieces 0 p.template), post])]

/-- One alignment for each of the parts, which are counted from `k`. -/
def alignmentsFrom (p : Pattern) (k : Nat) : List Value → List Guard
  | [] => []
  | part :: after => p.alignment k part after :: p.alignmentsFrom (k + 1) after

/-- The alternatives of a pattern on a value, without any check. -/
def alternativesOf (p : Pattern) (v : Value) : List Guard :=
  match p.mode with
  | .exact => [.compare .eq v (.concat (p.pieces 0 p.template))]
  | .contains => p.alignmentsFrom 0 (searchParts v)

/-! ## 3. A construction that succeeds -/

theorem fresh_eq_ok {p : Pattern} {taken : Declarations} {r : String} {k : Nat} {w : Value}
    (h : p.fresh taken r k = .ok w) :
    w = .stringVar (p.freshName r k) ∧ taken.contains (p.freshName r k) = false := by
  unfold fresh at h
  dsimp only at h
  split at h
  · exact absurd h (by simp)
  · next hfree => exact ⟨(Except.ok.inj h).symm, by simpa using hfree⟩

theorem mkConcat_eq_ok {parts : List Value} {v : Value} (h : Value.mkConcat parts = .ok v) :
    v = .concat parts := by
  obtain ⟨_, -, h⟩ := bind_eq_ok.mp h
  exact (Except.ok.inj h).symm

theorem mkCompare_eq_ok {op : CompareOp} {l r : Value} {g : Guard}
    (h : Guard.mkCompare op l r = .ok g) : g = .compare op l r := by
  obtain ⟨_, -, h⟩ := bind_eq_ok.mp h
  exact (Except.ok.inj h).symm

theorem wildcards_literal (s : String) (t : Template) :
    Template.wildcards (.literal s :: t) = Template.wildcards t := by
  simp [Template.wildcards]

theorem wildcards_wildcard (t : Template) :
    Template.wildcards (.wildcard :: t) = Template.wildcards t + 1 := by
  simp [Template.wildcards]

theorem templateParts_eq_ok {p : Pattern} {taken : Declarations} :
    ∀ {t : Template} {k : Nat} {vs : List Value}, p.templateParts taken k t = .ok vs →
      vs = p.pieces k t ∧
        ∀ i < t.wildcards, taken.contains (p.freshName "w" (k + i)) = false
  | [], k, vs, h => by
    obtain rfl := Except.ok.inj h
    exact ⟨rfl, fun i hi => absurd hi (by simp [Template.wildcards])⟩
  | .literal s :: rest, k, vs, h => by
    obtain ⟨more, hmore, h⟩ := bind_eq_ok.mp h
    obtain rfl := Except.ok.inj h
    obtain ⟨rfl, hfree⟩ := templateParts_eq_ok hmore
    rw [wildcards_literal]
    exact ⟨rfl, hfree⟩
  | .wildcard :: rest, k, vs, h => by
    obtain ⟨w, hw, h⟩ := bind_eq_ok.mp h
    obtain ⟨more, hmore, h⟩ := bind_eq_ok.mp h
    obtain rfl := Except.ok.inj h
    obtain ⟨rfl, hfree⟩ := templateParts_eq_ok hmore
    obtain ⟨rfl, hk⟩ := fresh_eq_ok hw
    refine ⟨rfl, fun i hi => ?_⟩
    cases i with
    | zero => exact hk
    | succ i =>
      rw [wildcards_wildcard] at hi
      have hi' := hfree i (by omega)
      rwa [Nat.add_right_comm] at hi'

theorem alignments_eq_ok {p : Pattern} {taken : Declarations} :
    ∀ {parts : List Value} {k : Nat} {alts : List Guard},
      p.alignments taken (.concat (p.pieces 0 p.template)) k parts = .ok alts →
        alts = p.alignmentsFrom k parts ∧ ∀ i < parts.length, ∀ name ∈
          [p.freshName "pre" (k + i), p.freshName "rest" (k + i), p.freshName "post" (k + i)],
            taken.contains name = false
  | [], k, alts, h => by
    obtain rfl := Except.ok.inj h
    exact ⟨rfl, fun i hi => absurd hi (by simp)⟩
  | part :: after, k, alts, h => by
    obtain ⟨pre, hpre, h⟩ := bind_eq_ok.mp h
    obtain ⟨rest, hrest, h⟩ := bind_eq_ok.mp h
    obtain ⟨post, hpost, h⟩ := bind_eq_ok.mp h
    obtain ⟨left, hleft, h⟩ := bind_eq_ok.mp h
    obtain ⟨split, hsplit, h⟩ := bind_eq_ok.mp h
    obtain ⟨tail, htail, h⟩ := bind_eq_ok.mp h
    obtain ⟨right, hright, h⟩ := bind_eq_ok.mp h
    obtain ⟨anchored, hanchored, h⟩ := bind_eq_ok.mp h
    obtain ⟨more, hmore, h⟩ := bind_eq_ok.mp h
    obtain rfl := Except.ok.inj h
    obtain ⟨rfl, hfpre⟩ := fresh_eq_ok hpre
    obtain ⟨rfl, hfrest⟩ := fresh_eq_ok hrest
    obtain ⟨rfl, hfpost⟩ := fresh_eq_ok hpost
    obtain rfl := mkConcat_eq_ok hleft
    obtain rfl := mkCompare_eq_ok hsplit
    obtain rfl := mkConcat_eq_ok htail
    obtain rfl := mkConcat_eq_ok hright
    obtain rfl := mkCompare_eq_ok hanchored
    obtain ⟨rfl, hfree⟩ := alignments_eq_ok hmore
    refine ⟨rfl, fun i hi => ?_⟩
    cases i with
    | zero => simp [hfpre, hfrest, hfpost]
    | succ i =>
      have hi' := hfree i (by simpa using hi)
      rwa [Nat.add_right_comm] at hi'

/-- **What a successful construction has built**: the alternatives themselves, for a string, with
names that neither the value nor the path uses. -/
theorem alternatives_eq_ok {p : Pattern} {v : Value} {path : Guard} {alts : List Guard}
    (h : p.alternatives v path = .ok alts) :
    v.sort = .ok .string ∧ alts = p.alternativesOf v ∧
      ∀ q ∈ v.occurrences ++ path.occurrences, q.1 ∉ p.freshNames v := by
  obtain ⟨s, hs, h⟩ := bind_eq_ok.mp h
  split at h
  · exact absurd h (by simp)
  · next hstr =>
    obtain rfl : s = .string := by simpa using hstr
    obtain ⟨mid, hmid, h⟩ := bind_eq_ok.mp h
    obtain ⟨taken, htaken, h⟩ := bind_eq_ok.mp h
    obtain ⟨template, htemplate, h⟩ := bind_eq_ok.mp h
    obtain ⟨vs, hvs, htemplate⟩ := bind_eq_ok.mp htemplate
    obtain rfl := mkConcat_eq_ok htemplate
    obtain ⟨rfl, hw⟩ := templateParts_eq_ok hvs
    -- A name that occurs is taken, and a taken name is not fresh.
    have huse : ∀ q ∈ v.occurrences ++ path.occurrences, taken.contains q.1 = true := by
      intro q hq
      rcases List.mem_append.mp hq with hq | hq
      · exact Declarations.contains_of_find? (Declarations.keep_of_declareAll htaken
          (Declarations.find?_of_declareAll hmid q hq))
      · exact Declarations.contains_of_find? (Declarations.find?_of_declareAll htaken q hq)
    have hwild : ∀ i < p.template.wildcards, taken.contains (p.freshName "w" i) = false := by
      intro i hi
      simpa using hw i hi
    suffices hfree : alts = p.alternativesOf v ∧
        ∀ name ∈ p.freshNames v, taken.contains name = false by
      refine ⟨hs, hfree.1, fun q hq hmem => ?_⟩
      exact absurd ((huse q hq).symm.trans (hfree.2 q.1 hmem)) (by simp)
    unfold alternativesOf
    cases hmode : p.mode with
    | exact =>
      rw [hmode] at h
      obtain ⟨g, hg, h⟩ := bind_eq_ok.mp h
      obtain rfl := Except.ok.inj h
      obtain rfl := mkCompare_eq_ok hg
      refine ⟨rfl, fun name hname => ?_⟩
      rcases mem_freshNames.mp hname with ⟨i, hi, rfl⟩ | ⟨hcontains, -⟩
      · exact hwild i hi
      · exact absurd (hmode.symm.trans hcontains) (by simp)
    | contains =>
      rw [hmode] at h
      obtain ⟨rfl, hparts⟩ := alignments_eq_ok h
      refine ⟨rfl, fun name hname => ?_⟩
      rcases mem_freshNames.mp hname with ⟨i, hi, rfl⟩ | ⟨-, k, hk, hname⟩
      · exact hwild i hi
      · exact hparts k hk name (by simpa using hname)

end SinkReach.Pattern
