/-
# What evaluation depends on

Evaluation leaves a term undecided rather than guess.  This file says, node by node, what a
DECIDED term says of its parts, and draws the two consequences that everything else rests on.

* `Value.eval_of_refines`, `Guard.eval_of_refines`: an assignment that answers for at least the
  same variables decides at least the same terms, in the same way.
* `Value.eval_congr`, `Guard.eval_congr`: evaluation reads the variables that occur and no others.

The second is the first, used in both directions.  `evaluation_is_monotone_and_local` has both in terms
of what the assignments bind.
-/
import SinkReach.Term.Eval
import SinkReach.Term.Vars

namespace SinkReach

variable {sem : IntSemantics} {env env' : Assignment}

/-! ## 1. Decided nodes -/

theorem Constant.str?_eq_some {c : Constant} {s : String} : c.str? = some s ↔ c = .str s := by
  cases c <;> simp [Constant.str?]

theorem Constant.int?_eq_some {c : Constant} {n : Int64} : c.int? = some n ↔ c = .int n := by
  cases c <;> simp [Constant.int?]

theorem Value.eval_concat_eq_some {parts : List Value} {c : Constant} :
    (Value.concat parts).eval sem env = some c
      ↔ ∃ s, Value.evalText sem env parts = some s ∧ .str s = c := by
  simp [Value.eval]

theorem Value.eval_arith_eq_some {op : ArithOp} {l r : Value} {c : Constant} :
    (Value.arith op l r).eval sem env = some c
      ↔ ∃ a, l.eval sem env = some (.int a) ∧ ∃ b, r.eval sem env = some (.int b)
          ∧ ∃ n, op.apply sem a b = some n ∧ .int n = c := by
  simp only [Value.eval, Option.bind_eq_bind, Option.bind_eq_some_iff, Constant.int?_eq_some,
    Option.pure_def, Option.some.injEq]
  constructor
  · rintro ⟨_, ha, a, rfl, _, hb, b, rfl, n, hn, hc⟩
    exact ⟨a, ha, b, hb, n, hn, hc⟩
  · rintro ⟨a, ha, b, hb, n, hn, hc⟩
    exact ⟨_, ha, a, rfl, _, hb, b, rfl, n, hn, hc⟩

theorem Value.eval_ite_eq_some {g : Guard} {t e : Value} {c : Constant} :
    (Value.ite g t e).eval sem env = some c
      ↔ ∃ b, g.eval sem env = some b ∧ (if b then t else e).eval sem env = some c := by
  simp only [Value.eval, Option.bind_eq_bind, Option.bind_eq_some_iff, apply_ite]

theorem Value.evalText_cons_eq_some {v : Value} {vs : List Value} {s : String} :
    Value.evalText sem env (v :: vs) = some s
      ↔ ∃ a, v.eval sem env = some (.str a)
          ∧ ∃ b, Value.evalText sem env vs = some b ∧ a ++ b = s := by
  simp only [Value.evalText, Option.bind_eq_bind, Option.bind_eq_some_iff, Constant.str?_eq_some,
    Option.pure_def, Option.some.injEq]
  constructor
  · rintro ⟨_, ha, a, rfl, b, hb, hs⟩
    exact ⟨a, ha, b, hb, hs⟩
  · rintro ⟨a, ha, b, hb, hs⟩
    exact ⟨_, ha, a, rfl, b, hb, hs⟩

theorem Guard.eval_compare_eq_some {op : CompareOp} {l r : Value} {b : Bool} :
    (Guard.compare op l r).eval sem env = some b
      ↔ ∃ x, l.eval sem env = some x ∧ ∃ y, r.eval sem env = some y ∧ op.eval x y = some b := by
  simp [Guard.eval, Option.bind_eq_some_iff]

theorem Guard.eval_not_eq_some {g : Guard} {b : Bool} :
    (Guard.not g).eval sem env = some b ↔ g.eval sem env = some !b := by
  simp [Guard.eval]

theorem Guard.eval_affix_eq_some {side : Side} {part text : Value} {b : Bool} :
    (Guard.affix side part text).eval sem env = some b
      ↔ ∃ p, part.eval sem env = some (.str p) ∧ ∃ t, text.eval sem env = some (.str t)
          ∧ side.tests p t = b := by
  simp only [Guard.eval, Option.bind_eq_bind, Option.bind_eq_some_iff, Constant.str?_eq_some,
    Option.pure_def, Option.some.injEq]
  constructor
  · rintro ⟨_, hp, _, ht, p, rfl, t, rfl, hb⟩
    exact ⟨p, hp, t, ht, hb⟩
  · rintro ⟨p, hp, t, ht, hb⟩
    exact ⟨_, hp, _, ht, p, rfl, t, rfl, hb⟩

/-- The text of two lists of parts is the text of the one followed by the text of the other. -/
theorem Value.evalText_append_eq_some : ∀ {us vs : List Value} {s : String},
    Value.evalText sem env (us ++ vs) = some s
      ↔ ∃ a, Value.evalText sem env us = some a
          ∧ ∃ b, Value.evalText sem env vs = some b ∧ a ++ b = s
  | [], vs, s => by simp [Value.evalText]
  | u :: us, vs, s => by
    simp only [List.cons_append, Value.evalText_cons_eq_some, Value.evalText_append_eq_some]
    constructor
    · rintro ⟨a, ha, _, ⟨b, hb, c, hc, rfl⟩, rfl⟩
      exact ⟨a ++ b, ⟨a, ha, b, hb, rfl⟩, c, hc, String.append_assoc ..⟩
    · rintro ⟨_, ⟨a, ha, b, hb, rfl⟩, c, hc, rfl⟩
      exact ⟨a, ha, b ++ c, ⟨b, hb, c, hc, rfl⟩, (String.append_assoc ..).symm⟩

/-! ## 2. Junctions

A junction is decided by its parts as a SET: one part with the absorbing truth value, or all of
them with the neutral one. -/

theorem Junction.eq_absorbing_or_eq_neutral (j : Junction) (b : Bool) :
    b = j.absorbing ∨ b = j.neutral := by
  cases j <;> cases b <;> simp [Junction.absorbing, Junction.neutral]

theorem Junction.absorbing_ne_neutral (j : Junction) : j.absorbing ≠ j.neutral := by
  cases j <;> decide

theorem Junction.combine_eq_absorbing {j : Junction} {part rest : Option Bool} :
    j.combine part rest = some j.absorbing
      ↔ part = some j.absorbing ∨ rest = some j.absorbing := by
  unfold Junction.combine
  split
  · next b =>
    split
    · next h => simp [h]
    · next h => simp [h]
  · split
    · next h => simp [h]
    · next h => simp [h]

theorem Junction.combine_eq_neutral {j : Junction} {part rest : Option Bool} :
    j.combine part rest = some j.neutral ↔ part = some j.neutral ∧ rest = some j.neutral := by
  have hne := j.absorbing_ne_neutral
  unfold Junction.combine
  split
  · next b =>
    rcases j.eq_absorbing_or_eq_neutral b with rfl | rfl
    · simp [hne]
    · simp [hne.symm]
  · split
    · next h => simp [h, hne]
    · simp

/-- A decided junction stays decided when its parts do. -/
theorem Junction.combine_mono {j : Junction} {part rest part' rest' : Option Bool} {b : Bool}
    (hpart : ∀ b, part = some b → part' = some b) (hrest : ∀ b, rest = some b → rest' = some b)
    (h : j.combine part rest = some b) : j.combine part' rest' = some b := by
  rcases j.eq_absorbing_or_eq_neutral b with rfl | rfl
  · rw [Junction.combine_eq_absorbing] at h ⊢
    exact h.imp (hpart _) (hrest _)
  · rw [Junction.combine_eq_neutral] at h ⊢
    exact h.imp (hpart _) (hrest _)

theorem Guard.evalJunction_eq_absorbing {j : Junction} : ∀ {gs : List Guard},
    Guard.evalJunction sem env j gs = some j.absorbing
      ↔ ∃ g ∈ gs, g.eval sem env = some j.absorbing
  | [] => by simp [Guard.evalJunction, j.absorbing_ne_neutral.symm]
  | g :: gs => by
    rw [Guard.evalJunction, Junction.combine_eq_absorbing, Guard.evalJunction_eq_absorbing]
    simp

theorem Guard.evalJunction_eq_neutral {j : Junction} : ∀ {gs : List Guard},
    Guard.evalJunction sem env j gs = some j.neutral
      ↔ ∀ g ∈ gs, g.eval sem env = some j.neutral
  | [] => by simp [Guard.evalJunction]
  | g :: gs => by
    rw [Guard.evalJunction, Junction.combine_eq_neutral, Guard.evalJunction_eq_neutral]
    simp

/-- **How a decided junction is carried over to other parts.**  It is enough that a part with the
absorbing truth value has a counterpart with it, and that if all parts are neutral so are all of
the others. -/
theorem Guard.evalJunction_transfer {j : Junction} {gs hs : List Guard} {b : Bool}
    (habs : ∀ g ∈ gs, g.eval sem env = some j.absorbing →
      ∃ h ∈ hs, h.eval sem env = some j.absorbing)
    (hneu : (∀ g ∈ gs, g.eval sem env = some j.neutral) →
      ∀ h ∈ hs, h.eval sem env = some j.neutral)
    (hb : Guard.evalJunction sem env j gs = some b) :
    Guard.evalJunction sem env j hs = some b := by
  rcases j.eq_absorbing_or_eq_neutral b with rfl | rfl
  · obtain ⟨g, hg, he⟩ := Guard.evalJunction_eq_absorbing.mp hb
    exact Guard.evalJunction_eq_absorbing.mpr (habs g hg he)
  · exact Guard.evalJunction_eq_neutral.mpr (hneu (Guard.evalJunction_eq_neutral.mp hb))

/-! ## 3. More variables, more decided -/

/-- On these variables the second assignment answers at least as often as the first, and never
differently. -/
def Assignment.Refines (env env' : Assignment) (vars : List (String × ValueSort)) : Prop :=
  ∀ p ∈ vars, ∀ c, env.read p.1 p.2 = some c → env'.read p.1 p.2 = some c

theorem Assignment.Refines.mono {vars sub : List (String × ValueSort)}
    (h : env.Refines env' vars) (hsub : ∀ p ∈ sub, p ∈ vars) : env.Refines env' sub :=
  fun p hp => h p (hsub p hp)

theorem Assignment.Refines.left {us vs : List (String × ValueSort)}
    (h : env.Refines env' (us ++ vs)) : env.Refines env' us :=
  h.mono fun _ => List.mem_append_left vs

theorem Assignment.Refines.right {us vs : List (String × ValueSort)}
    (h : env.Refines env' (us ++ vs)) : env.Refines env' vs :=
  h.mono fun _ => List.mem_append_right us

/-- An assignment that keeps every binding of another refines it on all variables. -/
theorem Assignment.refines_of_find? {vars : List (String × ValueSort)}
    (h : ∀ name c, env.find? name = some c → env'.find? name = some c) :
    env.Refines env' vars := by
  intro p _ c hc
  obtain ⟨hfind, hsort⟩ := Option.filter_eq_some_iff.mp hc
  exact Option.filter_eq_some_iff.mpr ⟨h p.1 c hfind, hsort⟩

mutual

/-- **A decided value stays decided** when the assignment is refined on its variables. -/
theorem Value.eval_of_refines : ∀ {v : Value} {c : Constant},
    env.Refines env' v.occurrences → v.eval sem env = some c → v.eval sem env' = some c
  | .lit _, _, _, h => by simpa [Value.eval] using h
  | .var name s, c, hr, h => by
    rw [Value.eval] at h ⊢
    exact hr (name, s) (by simp [Value.occurrences]) c h
  | .concat parts, c, hr, h => by
    obtain ⟨s, hs, rfl⟩ := Value.eval_concat_eq_some.mp h
    exact Value.eval_concat_eq_some.mpr ⟨s, Value.evalText_of_refines hr hs, rfl⟩
  | .arith op l r, c, hr, h => by
    obtain ⟨a, ha, b, hb, n, hn, rfl⟩ := Value.eval_arith_eq_some.mp h
    exact Value.eval_arith_eq_some.mpr
      ⟨a, Value.eval_of_refines hr.left ha, b, Value.eval_of_refines hr.right hb, n, hn, rfl⟩
  | .ite g t e, c, hr, h => by
    obtain ⟨b, hb, hc⟩ := Value.eval_ite_eq_some.mp h
    refine Value.eval_ite_eq_some.mpr ⟨b, Guard.eval_of_refines hr.left hb, ?_⟩
    cases b
    · exact Value.eval_of_refines hr.right.right hc
    · exact Value.eval_of_refines hr.right.left hc

theorem Value.evalText_of_refines : ∀ {vs : List Value} {s : String},
    env.Refines env' (Value.occurrencesIn vs) →
      Value.evalText sem env vs = some s → Value.evalText sem env' vs = some s
  | [], _, _, h => by simpa [Value.evalText] using h
  | v :: vs, s, hr, h => by
    obtain ⟨a, ha, b, hb, rfl⟩ := Value.evalText_cons_eq_some.mp h
    exact Value.evalText_cons_eq_some.mpr
      ⟨a, Value.eval_of_refines hr.left ha, b, Value.evalText_of_refines hr.right hb, rfl⟩

/-- **A decided guard stays decided** when the assignment is refined on its variables. -/
theorem Guard.eval_of_refines : ∀ {g : Guard} {b : Bool},
    env.Refines env' g.occurrences → g.eval sem env = some b → g.eval sem env' = some b
  | .const _, _, _, h => by simpa [Guard.eval] using h
  | .compare op l r, b, hr, h => by
    obtain ⟨x, hx, y, hy, hxy⟩ := Guard.eval_compare_eq_some.mp h
    exact Guard.eval_compare_eq_some.mpr
      ⟨x, Value.eval_of_refines hr.left hx, y, Value.eval_of_refines hr.right hy, hxy⟩
  | .not g, b, hr, h => by
    exact Guard.eval_not_eq_some.mpr (Guard.eval_of_refines hr (Guard.eval_not_eq_some.mp h))
  | .junction j parts, b, hr, h => by
    rw [Guard.eval] at h ⊢
    exact Guard.evalJunction_of_refines hr h
  | .affix side part text, b, hr, h => by
    obtain ⟨p, hp, t, ht, hpt⟩ := Guard.eval_affix_eq_some.mp h
    exact Guard.eval_affix_eq_some.mpr
      ⟨p, Value.eval_of_refines hr.left hp, t, Value.eval_of_refines hr.right ht, hpt⟩

theorem Guard.evalJunction_of_refines {j : Junction} : ∀ {gs : List Guard} {b : Bool},
    env.Refines env' (Guard.occurrencesIn gs) →
      Guard.evalJunction sem env j gs = some b → Guard.evalJunction sem env' j gs = some b
  | [], _, _, h => by simpa [Guard.evalJunction] using h
  | g :: gs, b, hr, h => by
    rw [Guard.evalJunction] at h ⊢
    exact Junction.combine_mono (fun _ => Guard.eval_of_refines hr.left)
      (fun _ => Guard.evalJunction_of_refines hr.right) h

end

/-! ## 4. Nothing but the variables that occur -/

/-- Two optional results are the same if each decided one is the other. -/
theorem eq_of_some_imp {α : Type} {x y : Option α} (hxy : ∀ a, x = some a → y = some a)
    (hyx : ∀ a, y = some a → x = some a) : x = y :=
  Option.ext fun a => ⟨hxy a, hyx a⟩

/-- The assignments bind these variables alike, or not at all. -/
def Assignment.AgreeOn (env env' : Assignment) (vars : List (String × ValueSort)) : Prop :=
  ∀ p ∈ vars, env.find? p.1 = env'.find? p.1

theorem Assignment.AgreeOn.symm {vars : List (String × ValueSort)} (h : env.AgreeOn env' vars) :
    env'.AgreeOn env vars := fun p hp => (h p hp).symm

theorem Assignment.AgreeOn.refines {vars : List (String × ValueSort)}
    (h : env.AgreeOn env' vars) : env.Refines env' vars := by
  intro p hp c hc
  rw [Assignment.read, ← h p hp]
  exact hc

/-- **Evaluation of a value reads the variables that occur in it**, and no others. -/
theorem Value.eval_congr {v : Value} (h : env.AgreeOn env' v.occurrences) :
    v.eval sem env = v.eval sem env' :=
  eq_of_some_imp (fun _ => Value.eval_of_refines h.refines)
    (fun _ => Value.eval_of_refines h.symm.refines)

theorem Value.evalText_congr {vs : List Value}
    (h : env.AgreeOn env' (Value.occurrencesIn vs)) :
    Value.evalText sem env vs = Value.evalText sem env' vs :=
  eq_of_some_imp (fun _ => Value.evalText_of_refines h.refines)
    (fun _ => Value.evalText_of_refines h.symm.refines)

/-- **Evaluation of a guard reads the variables that occur in it**, and no others. -/
theorem Guard.eval_congr {g : Guard} (h : env.AgreeOn env' g.occurrences) :
    g.eval sem env = g.eval sem env' :=
  eq_of_some_imp (fun _ => Guard.eval_of_refines h.refines)
    (fun _ => Guard.eval_of_refines h.symm.refines)

/-! ## 5. Assignments that grow, and assignments that agree -/

/-- **Evaluation is monotone in the assignment and reads only the variables that occur.**

* An assignment that keeps every binding of another decides at least the same terms, and gives them
  the same results.
* Assignments that bind the variables of a term alike, or both not at all, give it the same result;
  where one leaves it undecided, so does the other. -/
theorem evaluation_is_monotone_and_local (sem : IntSemantics) (env env' : Assignment) :
    ((∀ name c, env.find? name = some c → env'.find? name = some c) →
      (∀ (v : Value) (c : Constant), v.eval sem env = some c → v.eval sem env' = some c) ∧
      ∀ (g : Guard) (b : Bool), g.eval sem env = some b → g.eval sem env' = some b) ∧
    (∀ v : Value, (∀ p ∈ v.occurrences, env.find? p.1 = env'.find? p.1) →
      v.eval sem env = v.eval sem env') ∧
    ∀ g : Guard, (∀ p ∈ g.occurrences, env.find? p.1 = env'.find? p.1) →
      g.eval sem env = g.eval sem env' := by
  refine ⟨?_, ?_, ?_⟩
  · intro hkeep
    refine ⟨?_, ?_⟩
    · intro v c hc
      exact Value.eval_of_refines (Assignment.refines_of_find? hkeep) hc
    · intro g b hb
      exact Guard.eval_of_refines (Assignment.refines_of_find? hkeep) hb
  · intro v hagree
    exact Value.eval_congr hagree
  · intro g hagree
    exact Guard.eval_congr hagree

/-- A conjunction that one part refutes while the other needs a variable that is not bound, and a
choice that passes the same variable over.  Binding it makes the undecided part true, and changes
neither result; a comparison with a variable that stays unbound is undecided before and after. -/
theorem evaluation_is_monotone_and_local_unnamedUser :
    let env : Assignment := .ofList [("n", .int 5)]
    let env' : Assignment := .ofList [("n", .int 5), ("user", .str "root")]
    let named := Guard.compare .eq (.var "user" .string) (.str "root")
    let test := Guard.all [named, .compare .lt (.var "n" .int) (.int 0)]
    let chosen := Value.ite test (.var "user" .string) (.arith .add (.var "n" .int) (.int 1))
    let bounded := Guard.compare .lt (.var "n" .int) (.var "limit" .int)
    (named.eval .unbounded env = none ∧ named.eval .unbounded env' = some true) ∧
    (test.eval .unbounded env = some false ∧ test.eval .unbounded env' = some false) ∧
    (chosen.eval .unbounded env = some (.int 6) ∧ chosen.eval .unbounded env' = some (.int 6)) ∧
    (bounded.eval .unbounded env = none ∧ bounded.eval .unbounded env' = none) := by
  intro env env' named test chosen bounded
  have hkeep : ∀ name c, env.find? name = some c → env'.find? name = some c := by
    intro name c
    simp only [env, env', Bindings.ofList, List.foldl_cons, List.foldl_nil, Bindings.find?_insert,
      Bindings.find?_empty]
    split
    · next hname => simp [hname]
    · exact nofun
  have hagree : ∀ p ∈ bounded.occurrences, env.find? p.1 = env'.find? p.1 := by decide
  have htest : test.eval .unbounded env = some false := by decide
  have hchosen : chosen.eval .unbounded env = some (.int 6) := by decide
  have hbounded : bounded.eval .unbounded env = none := by decide
  obtain ⟨hmono, -, hlocal⟩ := evaluation_is_monotone_and_local .unbounded env env'
  obtain ⟨hvalues, hguards⟩ := hmono hkeep
  refine ⟨⟨by decide, by decide⟩, ⟨htest, hguards test false htest⟩,
    ⟨hchosen, hvalues chosen (.int 6) hchosen⟩, hbounded, ?_⟩
  rw [← hlocal bounded hagree, hbounded]

end SinkReach
