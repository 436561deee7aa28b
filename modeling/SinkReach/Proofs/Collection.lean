/-
# Collecting variables misses none and adds none

Where a variable occurs in a tree is said here by the POSITIONS in it: under which parts of which
roots one may stand (`Value.Mentions`, `Guard.Mentions`).  Collecting is then shown to be exact, from
any declarations to start with:

* `Value.mem_occurrences_iff`, `Guard.mem_occurrences_iff`: no position is missed, and none is made
  up;
* `Value.collectVars_eq_foldlM`, `Guard.collectVars_eq_foldlM`: collecting goes through the tree, at
  each root from part to part, and stops at the first fault;
* `collection_is_exact`: it succeeds where no name has two sorts, and then declares what occurs
  besides what was declared, in whatever order it goes; and the closed trees are those in which it
  finds nothing.
-/
import SinkReach.Proofs.Oracle

namespace SinkReach

/-! ## 1. Where variables occur -/

mutual

/-- The variable occurs in the value with the sort, in its guards too. -/
inductive Value.Mentions : Value → String → ValueSort → Prop
  | var {name : String} {s : ValueSort} : Value.Mentions (.var name s) name s
  | part {ps : List Value} {p : Value} {name : String} {s : ValueSort} (hp : p ∈ ps)
    (h : Value.Mentions p name s) : Value.Mentions (.concat ps) name s
  | left {o : ArithOp} {l r : Value} {name : String} {s : ValueSort}
    (h : Value.Mentions l name s) : Value.Mentions (.arith o l r) name s
  | right {o : ArithOp} {l r : Value} {name : String} {s : ValueSort}
    (h : Value.Mentions r name s) : Value.Mentions (.arith o l r) name s
  | cond {c : Guard} {t e : Value} {name : String} {s : ValueSort}
    (h : Guard.Mentions c name s) : Value.Mentions (.ite c t e) name s
  | yes {c : Guard} {t e : Value} {name : String} {s : ValueSort}
    (h : Value.Mentions t name s) : Value.Mentions (.ite c t e) name s
  | no {c : Guard} {t e : Value} {name : String} {s : ValueSort}
    (h : Value.Mentions e name s) : Value.Mentions (.ite c t e) name s

/-- The variable occurs in the guard with the sort. -/
inductive Guard.Mentions : Guard → String → ValueSort → Prop
  | left {o : CompareOp} {l r : Value} {name : String} {s : ValueSort}
    (h : Value.Mentions l name s) : Guard.Mentions (.compare o l r) name s
  | right {o : CompareOp} {l r : Value} {name : String} {s : ValueSort}
    (h : Value.Mentions r name s) : Guard.Mentions (.compare o l r) name s
  | not {g : Guard} {name : String} {s : ValueSort}
    (h : Guard.Mentions g name s) : Guard.Mentions (.not g) name s
  | part {k : Junction} {ps : List Guard} {p : Guard} {name : String} {s : ValueSort} (hp : p ∈ ps)
    (h : Guard.Mentions p name s) : Guard.Mentions (.junction k ps) name s
  | affix {side : Side} {p t : Value} {name : String} {s : ValueSort}
    (h : Value.Mentions p name s) : Guard.Mentions (.affix side p t) name s
  | text {side : Side} {p t : Value} {name : String} {s : ValueSort}
    (h : Value.Mentions t name s) : Guard.Mentions (.affix side p t) name s

end

section Occurrences

variable {name : String} {s : ValueSort}

mutual

/-- **The occurrences of a value** are its variables at all positions. -/
theorem Value.mem_occurrences_iff : ∀ v : Value, (name, s) ∈ v.occurrences ↔ v.Mentions name s
  | .lit _ => by
    constructor
    · intro h
      exact absurd h (by simp [Value.occurrences])
    · intro h
      cases h
  | .var n t => by
    constructor
    · intro h
      obtain ⟨rfl, rfl⟩ := Prod.mk.inj (List.mem_singleton.mp h)
      exact .var
    · intro h
      cases h with
      | var => exact List.mem_singleton_self _
  | .concat ps => by
    rw [Value.occurrences, Value.mem_occurrencesIn_iff ps]
    constructor
    · rintro ⟨p, hp, h⟩
      exact .part hp h
    · intro h
      cases h with
      | part hp h => exact ⟨_, hp, h⟩
  | .arith _ l r => by
    rw [Value.occurrences, List.mem_append, Value.mem_occurrences_iff l,
      Value.mem_occurrences_iff r]
    constructor
    · rintro (h | h)
      · exact .left h
      · exact .right h
    · intro h
      cases h with
      | left h => exact .inl h
      | right h => exact .inr h
  | .ite c t e => by
    rw [Value.occurrences, List.mem_append, List.mem_append, Guard.mem_occurrences_iff c,
      Value.mem_occurrences_iff t, Value.mem_occurrences_iff e]
    constructor
    · rintro (h | h | h)
      · exact .cond h
      · exact .yes h
      · exact .no h
    · intro h
      cases h with
      | cond h => exact .inl h
      | yes h => exact .inr (.inl h)
      | no h => exact .inr (.inr h)

theorem Value.mem_occurrencesIn_iff : ∀ vs : List Value,
    (name, s) ∈ Value.occurrencesIn vs ↔ ∃ v ∈ vs, v.Mentions name s
  | [] => by simp [Value.occurrencesIn]
  | v :: vs => by
    rw [Value.occurrencesIn, List.mem_append, Value.mem_occurrences_iff v,
      Value.mem_occurrencesIn_iff vs]
    simp

/-- **The occurrences of a guard** are its variables at all positions. -/
theorem Guard.mem_occurrences_iff : ∀ g : Guard, (name, s) ∈ g.occurrences ↔ g.Mentions name s
  | .const _ => by
    constructor
    · intro h
      exact absurd h (by simp [Guard.occurrences])
    · intro h
      cases h
  | .compare _ l r => by
    rw [Guard.occurrences, List.mem_append, Value.mem_occurrences_iff l,
      Value.mem_occurrences_iff r]
    constructor
    · rintro (h | h)
      · exact .left h
      · exact .right h
    · intro h
      cases h with
      | left h => exact .inl h
      | right h => exact .inr h
  | .not g => by
    rw [Guard.occurrences, Guard.mem_occurrences_iff g]
    constructor
    · exact .not
    · intro h
      cases h with
      | not h => exact h
  | .junction _ ps => by
    rw [Guard.occurrences, Guard.mem_occurrencesIn_iff ps]
    constructor
    · rintro ⟨p, hp, h⟩
      exact .part hp h
    · intro h
      cases h with
      | part hp h => exact ⟨_, hp, h⟩
  | .affix _ p t => by
    rw [Guard.occurrences, List.mem_append, Value.mem_occurrences_iff p,
      Value.mem_occurrences_iff t]
    constructor
    · rintro (h | h)
      · exact .affix h
      · exact .text h
    · intro h
      cases h with
      | affix h => exact .inl h
      | text h => exact .inr h

theorem Guard.mem_occurrencesIn_iff : ∀ gs : List Guard,
    (name, s) ∈ Guard.occurrencesIn gs ↔ ∃ g ∈ gs, g.Mentions name s
  | [] => by simp [Guard.occurrencesIn]
  | g :: gs => by
    rw [Guard.occurrencesIn, List.mem_append, Guard.mem_occurrences_iff g,
      Guard.mem_occurrencesIn_iff gs]
    simp

end

end Occurrences

/-! ## 2. From part to part -/

/-- What collecting the variables of a value does, one step after the other. -/
def Value.collectSteps : Value → List (Declarations → Except SortFault Declarations)
  | .lit _ => []
  | .var name s => [fun vars => vars.declare name s]
  | .concat parts => parts.map Value.collectVars
  | .arith _ l r => [l.collectVars, r.collectVars]
  | .ite c t e => [c.collectVars, t.collectVars, e.collectVars]

/-- What collecting the variables of a guard does, one step after the other. -/
def Guard.collectSteps : Guard → List (Declarations → Except SortFault Declarations)
  | .const _ => []
  | .compare _ l r => [l.collectVars, r.collectVars]
  | .not g => [g.collectVars]
  | .junction _ parts => parts.map Guard.collectVars
  | .affix _ p t => [p.collectVars, t.collectVars]

/-- Occurrences that come in several lists are declared list by list. -/
theorem Declarations.declareAll_flatten (vars : Declarations)
    (ls : List (List (String × ValueSort))) :
    vars.declareAll ls.flatten
      = (ls.map fun l vars => Declarations.declareAll vars l).foldlM
          (fun vars step => step vars) vars := by
  induction ls generalizing vars with
  | nil => rfl
  | cons l ls ih =>
    rw [List.flatten_cons, Declarations.declareAll_append, List.map_cons, List.foldlM_cons]
    exact bind_congr ih

theorem Value.occurrencesIn_eq_flatten (vs : List Value) :
    Value.occurrencesIn vs = (vs.map Value.occurrences).flatten := by
  induction vs with
  | nil => rfl
  | cons v vs ih => rw [Value.occurrencesIn, ih, List.map_cons, List.flatten_cons]

theorem Guard.occurrencesIn_eq_flatten (gs : List Guard) :
    Guard.occurrencesIn gs = (gs.map Guard.occurrences).flatten := by
  induction gs with
  | nil => rfl
  | cons g gs ih => rw [Guard.occurrencesIn, ih, List.map_cons, List.flatten_cons]

/-- **Collecting goes through a value from part to part** and stops at the first fault. -/
theorem Value.collectVars_eq_foldlM (v : Value) (vars : Declarations) :
    v.collectVars vars = v.collectSteps.foldlM (fun vars step => step vars) vars := by
  cases v with
  | lit c => rfl
  | var name s => rfl
  | concat ps =>
    rw [Value.collectVars, Value.occurrences, Value.occurrencesIn_eq_flatten,
      Declarations.declareAll_flatten, List.map_map]
    rfl
  | arith o l r =>
    rw [Value.collectVars, Value.occurrences, Declarations.declareAll_append]
    simp [Value.collectSteps, Value.collectVars]
  | ite c t e =>
    rw [Value.collectVars, Value.occurrences, Declarations.declareAll_append]
    simp [Value.collectSteps, Value.collectVars, Guard.collectVars, Declarations.declareAll_append]

/-- **Collecting goes through a guard from part to part** and stops at the first fault. -/
theorem Guard.collectVars_eq_foldlM (g : Guard) (vars : Declarations) :
    g.collectVars vars = g.collectSteps.foldlM (fun vars step => step vars) vars := by
  cases g with
  | const b => rfl
  | compare o l r =>
    rw [Guard.collectVars, Guard.occurrences, Declarations.declareAll_append]
    simp [Guard.collectSteps, Value.collectVars]
  | not g => simp [Guard.collectSteps, Guard.collectVars, Guard.occurrences]
  | junction k ps =>
    rw [Guard.collectVars, Guard.occurrences, Guard.occurrencesIn_eq_flatten,
      Declarations.declareAll_flatten, List.map_map]
    rfl
  | affix side p t =>
    rw [Guard.collectVars, Guard.occurrences, Declarations.declareAll_append]
    simp [Guard.collectSteps, Value.collectVars]

/-! ## 3. What is declared in the end -/

/-- Collecting is exact for what is used. -/
structure CollectsExactly (used : String → ValueSort → Prop)
    (collect : Declarations → Except SortFault Declarations) : Prop where
  /-- It succeeds exactly where no name has two sorts. -/
  succeeds_iff : ∀ vars, (∃ vars', collect vars = .ok vars') ↔
    ∀ name s t, vars.Holds used name s → vars.Holds used name t → s = t
  /-- It then gives the declarations of what was declared and what is used. -/
  eq_ok_iff : ∀ vars vars', collect vars = .ok vars' ↔
    ∀ name s, vars'.find? name = some s ↔ vars.Holds used name s
  /-- Otherwise it names a name with two of its sorts. -/
  eq_error : ∀ vars fault, collect vars = .error fault → ∃ name s t,
    fault = .clash name s t ∧ s ≠ t ∧ vars.Holds used name s ∧ vars.Holds used name t
  /-- What is used may be declared in any order, and more than once. -/
  any_order : ∀ (vars vars' : Declarations) (l : List (String × ValueSort)),
    (∀ name s, (name, s) ∈ l ↔ used name s) →
      (collect vars = .ok vars' ↔ vars.declareAll l = .ok vars')

/-- Declaring occurrences one after the other collects them exactly. -/
theorem Declarations.collectsExactly_declareAll {used : String → ValueSort → Prop}
    {l : List (String × ValueSort)} (hl : ∀ name s, (name, s) ∈ l ↔ used name s) :
    CollectsExactly used fun vars => vars.declareAll l := by
  obtain rfl : (fun n s => (n, s) ∈ l) = used :=
    funext fun n => funext fun s => propext (hl n s)
  refine ⟨fun vars => exists_declareAll_iff, fun vars vars' => declareAll_eq_ok_iff,
    fun vars fault => declareAll_eq_error, fun vars vars' l' hl' => ?_⟩
  rw [declareAll_eq_ok_iff, declareAll_eq_ok_iff]
  simp only [Holds, hl']

/-- From nothing, exact collecting ends with nothing where nothing is used. -/
theorem CollectsExactly.empty_iff {used : String → ValueSort → Prop}
    {collect : Declarations → Except SortFault Declarations} (h : CollectsExactly used collect) :
    collect .empty = .ok .empty ↔ ∀ name s, ¬ used name s := by
  rw [h.eq_ok_iff]
  simp [Declarations.holds_empty]

theorem Value.collectsExactly (v : Value) : CollectsExactly v.Mentions v.collectVars :=
  Declarations.collectsExactly_declareAll fun _ _ => Value.mem_occurrences_iff v

theorem Guard.collectsExactly (g : Guard) : CollectsExactly g.Mentions g.collectVars :=
  Declarations.collectsExactly_declareAll fun _ _ => Guard.mem_occurrences_iff g

theorem Value.isClosed_iff_not_mentions (v : Value) :
    v.isClosed = true ↔ ∀ name s, ¬ v.Mentions name s := by
  have hnil : v.isClosed = true ↔ v.occurrences = [] :=
    ⟨Value.occurrences_of_isClosed, Value.isClosed_of_occurrences⟩
  rw [hnil, List.eq_nil_iff_forall_not_mem]
  simp only [Prod.forall, Value.mem_occurrences_iff]

theorem Guard.isClosed_iff_not_mentions (g : Guard) :
    g.isClosed = true ↔ ∀ name s, ¬ g.Mentions name s := by
  have hnil : g.isClosed = true ↔ g.occurrences = [] :=
    ⟨Guard.occurrences_of_isClosed, Guard.isClosed_of_occurrences⟩
  rw [hnil, List.eq_nil_iff_forall_not_mem]
  simp only [Prod.forall, Guard.mem_occurrences_iff]

/-- **Collecting variables is exact.**  It goes through the tree from part to part, and from any
declarations it succeeds exactly if these and the variables that occur in the tree, those in guards
within it included, leave every name one sort; it then adds the variables that occur and nothing
else, in whatever order they are met.  A tree is closed exactly if no variable occurs in it, and so
exactly if collecting from nothing ends with nothing. -/
theorem collection_is_exact :
    (∀ v : Value,
      (∀ vars, v.collectVars vars = v.collectSteps.foldlM (fun vars step => step vars) vars) ∧
      CollectsExactly v.Mentions v.collectVars ∧
      (v.isClosed = true ↔ ∀ name s, ¬ v.Mentions name s) ∧
      (v.isClosed = true ↔ v.collectVars .empty = .ok .empty)) ∧
    (∀ g : Guard,
      (∀ vars, g.collectVars vars = g.collectSteps.foldlM (fun vars step => step vars) vars) ∧
      CollectsExactly g.Mentions g.collectVars ∧
      (g.isClosed = true ↔ ∀ name s, ¬ g.Mentions name s) ∧
      (g.isClosed = true ↔ g.collectVars .empty = .ok .empty)) := by
  constructor
  · intro v
    have hexact := v.collectsExactly
    exact ⟨v.collectVars_eq_foldlM, hexact, v.isClosed_iff_not_mentions,
      v.isClosed_iff_not_mentions.trans hexact.empty_iff.symm⟩
  · intro g
    have hexact := g.collectsExactly
    exact ⟨g.collectVars_eq_foldlM, hexact, g.isClosed_iff_not_mentions,
      g.isClosed_iff_not_mentions.trans hexact.empty_iff.symm⟩

/-- A path whose second part is chosen by a negated disjunction, the only place where `depth`
occurs. -/
def guardedPath : Value :=
  .concat [.stringVar "dir",
    .ite (.not (.any [.compare .lt (.intVar "depth") (.int 3),
        .affix .start (.str "/") (.stringVar "dir")]))
      (.stringVar "file") (.str "")]

/-- With `dir` declared as a text before, the variables are collected, in the order of the tree and
in another one; with `depth` declared as a text they are not. -/
theorem collection_is_exact_guardedPath :
    (∃ vars, guardedPath.collectVars (Bindings.empty.insert "dir" .string) = .ok vars ∧
      vars.find? "depth" = some .int ∧
      Declarations.declareAll (Bindings.empty.insert "dir" .string)
        [("file", .string), ("depth", .int), ("dir", .string)] = .ok vars) ∧
    (¬ ∃ vars, guardedPath.collectVars (Bindings.empty.insert "depth" .string) = .ok vars) ∧
    guardedPath.isClosed ≠ true := by
  obtain ⟨-, hexact, hclosed, -⟩ := collection_is_exact.1 guardedPath
  have hdepth : guardedPath.Mentions "depth" .int :=
    (Value.mem_occurrences_iff guardedPath).mp (by decide)
  refine ⟨?_, fun hsome => ?_, fun h => hclosed.mp h "depth" .int hdepth⟩
  · obtain ⟨vars, hvars⟩ : ∃ vars,
        guardedPath.collectVars (Bindings.empty.insert "dir" .string) = .ok vars := ⟨_, rfl⟩
    refine ⟨vars, hvars, ?_, (hexact.any_order _ vars _ fun name s => ?_).mp hvars⟩
    · exact ((hexact.eq_ok_iff _ vars).mp hvars "depth" .int).mpr (.inr hdepth)
    · have hoccurrences : guardedPath.occurrences
          = [("dir", .string), ("depth", .int), ("dir", .string), ("file", .string)] := rfl
      rw [← Value.mem_occurrences_iff, hoccurrences]
      grind
  · have hone := (hexact.succeeds_iff _).mp hsome
    exact absurd (hone "depth" .string .int (.inl rfl) (.inr hdepth)) (by simp)

end SinkReach
