/-
# Canonical forms keep their meaning

A canonical form decides at least what the term decides, and decides it the same way.  It may
decide MORE: `n == n` is true whether or not `n` is bound, and a choice between equal branches
needs no guard.  So the main statement goes in one direction,

* `Value.eval_canonical`, `Guard.eval_canonical`: a decided term and its canonical form agree,

and the two are equal where the term is bound to be decided (`Proofs/WellSorted.lean`).

The proof follows the definition: one lemma for each rewriting of a node, about operands that are
canonical already, and one induction over both families of trees.
-/
import SinkReach.Proofs.Sorting
import SinkReach.Proofs.WellSorted
import SinkReach.Term.Build
import SinkReach.Term.Canonical

namespace SinkReach

variable {sem : IntSemantics} {env : Assignment}

/-! ## 1. Concatenations -/

/-- A concatenation has the text of its parts. -/
theorem Value.evalText_parts_append (v : Value) (vs : List Value) :
    Value.evalText sem env (v.parts ++ vs) = Value.evalText sem env (v :: vs) := by
  cases v with
  | concat ps =>
    refine Option.ext fun s => ?_
    rw [Value.parts, Value.evalText_append_eq_some, Value.evalText_cons_eq_some]
    simp only [Value.eval_concat_eq_some, Constant.str.injEq, exists_eq_right]
  | _ => rfl

theorem Value.evalText_flatMap_parts : ∀ vs : List Value,
    Value.evalText sem env (vs.flatMap Value.parts) = Value.evalText sem env vs
  | [] => rfl
  | v :: vs => by
    rw [List.flatMap_cons, Value.evalText_parts_append, Value.evalText, Value.evalText,
      Value.evalText_flatMap_parts vs]

/-- Fusing a literal with what follows it does not change the text. -/
theorem Value.evalText_fuseCons (v : Value) (rest : List Value) :
    Value.evalText sem env (Value.fuseCons v rest) = Value.evalText sem env (v :: rest) := by
  refine Option.ext fun s => ?_
  unfold Value.fuseCons
  split
  · next rest t =>
    split
    · next h =>
      simp [Value.evalText_cons_eq_some, Value.eval, Constant.eval, h]
    · split
      · next u more =>
        -- The two literals are read one after the other, or as one.
        simp only [Value.evalText_cons_eq_some, Value.eval, Constant.eval, Option.some.injEq,
          Constant.str.injEq, exists_eq_left', String.append_assoc]
        constructor
        · rintro ⟨b, hb, rfl⟩
          exact ⟨u ++ b, ⟨b, hb, rfl⟩, rfl⟩
        · rintro ⟨_, ⟨b, hb, rfl⟩, rfl⟩
          exact ⟨b, hb, rfl⟩
      · rfl
  · rfl

theorem Value.evalText_fuse : ∀ vs : List Value,
    Value.evalText sem env (Value.fuse vs) = Value.evalText sem env vs
  | [] => rfl
  | v :: vs => by
    have ih : Value.evalText sem env (vs.foldr Value.fuseCons []) = Value.evalText sem env vs :=
      Value.evalText_fuse vs
    rw [Value.fuse, List.foldr_cons, Value.evalText_fuseCons, Value.evalText, Value.evalText, ih]

theorem Value.eval_ofParts : ∀ {vs : List Value} {s : String},
    Value.evalText sem env vs = some s → (Value.ofParts vs).eval sem env = some (.str s)
  | [], s, h => by
    simpa [Value.ofParts, Value.eval, Value.evalText, Constant.eval] using h
  | [v], s, h => by
    obtain ⟨a, ha, b, hb, rfl⟩ := Value.evalText_cons_eq_some.mp h
    obtain rfl : "" = b := by simpa [Value.evalText] using hb
    simpa [Value.ofParts] using ha
  | v :: w :: vs, s, h => Value.eval_concat_eq_some.mpr ⟨s, h, rfl⟩

theorem Value.eval_join {vs : List Value} {s : String}
    (h : Value.evalText sem env vs = some s) : (Value.join vs).eval sem env = some (.str s) := by
  refine Value.eval_ofParts ?_
  rw [Value.evalText_fuse, Value.evalText_flatMap_parts]
  exact h

/-! ## 2. Choices, comparisons, negations and affix tests -/

theorem Value.eval_choose {g : Guard} {yes no : Value} {b : Bool} {c : Constant}
    (hb : g.eval sem env = some b) (hc : (if b then yes else no).eval sem env = some c) :
    (Value.choose g yes no).eval sem env = some c := by
  unfold Value.choose
  split
  · obtain rfl : true = b := by simpa [Guard.eval] using hb
    exact hc
  · obtain rfl : false = b := by simpa [Guard.eval] using hb
    exact hc
  · split
    · next h =>
      -- Both branches are the same value, so it does not matter which one is taken.
      subst h
      simpa using hc
    · exact Value.eval_ite_eq_some.mpr ⟨b, hb, hc⟩

/-- A constant compares with itself as equal, if the operator admits it at all. -/
theorem CompareOp.eval_self {op : CompareOp} {c : Constant} {b : Bool}
    (h : op.eval c c = some b) : op.holds .eq = b := by
  cases c with
  | int n => simpa [CompareOp.eval] using h
  | bool b => simpa [CompareOp.eval] using h
  | str s =>
    simp only [CompareOp.eval, Option.ite_none_right_eq_some] at h
    simpa using h.2

/-- Of two different texts, an operator that texts admit says only whether it is `ne`. -/
theorem CompareOp.eval_str_of_ne {op : CompareOp} {s t : String} {b : Bool} (hne : s ≠ t)
    (h : op.eval (.str s) (.str t) = some b) : decide (op = .ne) = b := by
  simp only [CompareOp.eval, Option.ite_none_right_eq_some, Option.some.injEq] at h
  obtain ⟨heq, rfl⟩ := h
  have hcmp : Ord.compare s t ≠ .eq := by simpa using hne
  cases op with
  | eq => cases hc : Ord.compare s t <;> simp_all [CompareOp.holds]
  | ne => cases hc : Ord.compare s t <;> simp_all [CompareOp.holds]
  | _ => simp [CompareOp.isEquality] at heq

theorem Guard.eval_ofCompare {op : CompareOp} {l r : Value} {x y : Constant} {b : Bool}
    (hx : l.eval sem env = some x) (hy : r.eval sem env = some y) (hb : op.eval x y = some b) :
    (Guard.ofCompare op l r).eval sem env = some b := by
  unfold Guard.ofCompare
  split
  · next h =>
    subst h
    obtain rfl : x = y := Option.some.inj (hx.symm.trans hy)
    rw [Guard.eval, CompareOp.eval_self hb]
  · next hne =>
    split
    · next s t =>
      obtain rfl : .str s = x := by simpa [Value.eval, Constant.eval] using hx
      obtain rfl : .str t = y := by simpa [Value.eval, Constant.eval] using hy
      rw [Guard.eval, CompareOp.eval_str_of_ne (fun h => hne (by rw [h])) hb]
    · next p q =>
      obtain rfl : .bool p = x := by simpa [Value.eval, Constant.eval] using hx
      obtain rfl : .bool q = y := by simpa [Value.eval, Constant.eval] using hy
      simpa [Guard.eval, CompareOp.eval] using hb
    · exact Guard.eval_compare_eq_some.mpr ⟨x, hx, y, hy, hb⟩

theorem CompareOp.eval_negate (op : CompareOp) (x y : Constant) :
    op.negate.eval x y = (op.eval x y).map (!·) := by
  cases x <;> cases y <;> simp only [CompareOp.eval, CompareOp.holds_negate, Option.map_some,
    Option.map_none]
  cases op <;> rfl

/-- Negation is kept exactly: what is undecided stays so. -/
theorem Guard.eval_negate (g : Guard) :
    g.negate.eval sem env = (g.eval sem env).map (!·) := by
  cases g with
  | const b => rfl
  | not g => cases h : g.eval sem env <;> simp [Guard.negate, Guard.eval, h]
  | compare op l r =>
    simp only [Guard.negate, Guard.eval, CompareOp.eval_negate]
    cases l.eval sem env <;> cases r.eval sem env <;> rfl
  | _ => rfl

/-- A text begins and ends with itself. -/
theorem Side.tests_self (side : Side) (s : String) : side.tests s s = true := by
  cases side with
  | start => simp [Side.tests]
  | finish => simp [Side.tests]

theorem Guard.eval_ofAffix {side : Side} {part text : Value} {p t : String}
    (hp : part.eval sem env = some (.str p)) (ht : text.eval sem env = some (.str t)) :
    (Guard.ofAffix side part text).eval sem env = some (side.tests p t) := by
  unfold Guard.ofAffix
  split
  · obtain rfl : _ = p := by simpa [Value.eval, Constant.eval] using hp
    obtain rfl : _ = t := by simpa [Value.eval, Constant.eval] using ht
    rfl
  · split
    · next h =>
      subst h
      obtain rfl : p = t := by simpa using hp.symm.trans ht
      rw [Guard.eval, Side.tests_self]
    · exact Guard.eval_affix_eq_some.mpr ⟨p, hp, t, ht, rfl⟩

/-! ## 3. Junctions

Flattening, ordering and dropping repetitions change the list of parts but not, up to constants
and nesting, what is in it; and a decided junction depends on nothing else. -/

/-- Dropping repetitions keeps the elements. -/
theorem Guard.mem_dropRepeats {x : Guard} : ∀ {l : List Guard},
    x ∈ Guard.dropRepeats l ↔ x ∈ l
  | [] => by simp [Guard.dropRepeats]
  | [g] => by simp [Guard.dropRepeats]
  | g :: h :: rest => by
    rw [Guard.dropRepeats]
    split
    · next heq => rw [Guard.mem_dropRepeats, heq]; simp
    · rw [List.mem_cons, Guard.mem_dropRepeats, List.mem_cons (b := g)]

theorem Junction.eval_ofParts {j : Junction} : ∀ {gs : List Guard} {b : Bool},
    Guard.evalJunction sem env j gs = some b → (j.ofParts gs).eval sem env = some b
  | [], b, h => by simpa [Junction.ofParts, Guard.eval, Guard.evalJunction] using h
  | [g], b, h => by
    rw [Junction.ofParts]
    rcases j.eq_absorbing_or_eq_neutral b with rfl | rfl
    · simpa using Guard.evalJunction_eq_absorbing.mp h
    · simpa using Guard.evalJunction_eq_neutral.mp h
  | g :: h :: rest, b, hb => by simpa [Junction.ofParts, Guard.eval] using hb

/-- A part with the absorbing truth value, unless it is that constant, hands it on to something
that it contributes. -/
theorem Junction.exists_contribution {j : Junction} {g : Guard}
    (hne : g ≠ .const j.absorbing) (h : g.eval sem env = some j.absorbing) :
    ∃ x ∈ j.contribution g, x.eval sem env = some j.absorbing := by
  cases g with
  | const b =>
    obtain rfl : b = j.absorbing := by simpa [Guard.eval] using h
    exact absurd rfl hne
  | junction k ps =>
    by_cases hk : k = j
    · subst hk
      rw [Guard.eval] at h
      simpa [Junction.contribution] using Guard.evalJunction_eq_absorbing.mp h
    · exact ⟨.junction k ps, by simp [Junction.contribution, hk], h⟩
  | _ => exact ⟨_, by simp [Junction.contribution], h⟩

/-- What a neutral part contributes is neutral. -/
theorem Junction.forall_contribution {j : Junction} {g x : Guard}
    (h : g.eval sem env = some j.neutral) (hx : x ∈ j.contribution g) :
    x.eval sem env = some j.neutral := by
  cases g with
  | const b => simp [Junction.contribution] at hx
  | junction k ps =>
    by_cases hk : k = j
    · subst hk
      rw [Guard.eval] at h
      exact Guard.evalJunction_eq_neutral.mp h x (by simpa [Junction.contribution] using hx)
    · obtain rfl : x = .junction k ps := by simpa [Junction.contribution, hk] using hx
      exact h
  | _ =>
    obtain rfl : x = _ := by simpa [Junction.contribution] using hx
    exact h

theorem Junction.eval_join {j : Junction} {gs : List Guard} {b : Bool}
    (h : Guard.evalJunction sem env j gs = some b) : (j.join gs).eval sem env = some b := by
  unfold Junction.join
  split
  · next hmem =>
    have habs : Guard.evalJunction sem env j gs = some j.absorbing :=
      Guard.evalJunction_eq_absorbing.mpr ⟨_, hmem, rfl⟩
    rw [Guard.eval, ← habs]
    exact h
  · next hmem =>
    refine Junction.eval_ofParts (Guard.evalJunction_transfer ?_ ?_ h)
    · intro g hg he
      obtain ⟨x, hx, hxe⟩ := Junction.exists_contribution (fun hc => hmem (hc ▸ hg)) he
      refine ⟨x, ?_, hxe⟩
      rw [Guard.mem_dropRepeats, mem_sortBy]
      exact List.mem_flatMap.mpr ⟨g, hg, hx⟩
    · intro hneu x hx
      rw [Guard.mem_dropRepeats, mem_sortBy] at hx
      obtain ⟨g, hg, hx⟩ := List.mem_flatMap.mp hx
      exact Junction.forall_contribution (hneu g hg) hx

/-! ## 4. Whole trees -/

mutual

/-- **A decided value and its canonical form have the same constant.** -/
theorem Value.eval_canonical : ∀ {v : Value} {c : Constant},
    v.eval sem env = some c → v.canonical.eval sem env = some c
  | .lit _, _, h => by rw [Value.canonical]; exact h
  | .var _ _, _, h => by rw [Value.canonical]; exact h
  | .concat parts, c, h => by
    obtain ⟨s, hs, rfl⟩ := Value.eval_concat_eq_some.mp h
    rw [Value.canonical]
    exact Value.eval_join (Value.evalText_canonicalAll hs)
  | .arith op l r, c, h => by
    obtain ⟨a, ha, b, hb, n, hn, rfl⟩ := Value.eval_arith_eq_some.mp h
    rw [Value.canonical]
    exact Value.eval_arith_eq_some.mpr
      ⟨a, Value.eval_canonical ha, b, Value.eval_canonical hb, n, hn, rfl⟩
  | .ite g t e, c, h => by
    obtain ⟨b, hb, hc⟩ := Value.eval_ite_eq_some.mp h
    rw [Value.canonical]
    refine Value.eval_choose (Guard.eval_canonical hb) ?_
    cases b
    · exact Value.eval_canonical hc
    · exact Value.eval_canonical hc

theorem Value.evalText_canonicalAll : ∀ {vs : List Value} {s : String},
    Value.evalText sem env vs = some s →
      Value.evalText sem env (Value.canonicalAll vs) = some s
  | [], _, h => by rw [Value.canonicalAll]; exact h
  | v :: vs, s, h => by
    obtain ⟨a, ha, b, hb, rfl⟩ := Value.evalText_cons_eq_some.mp h
    rw [Value.canonicalAll]
    exact Value.evalText_cons_eq_some.mpr
      ⟨a, Value.eval_canonical ha, b, Value.evalText_canonicalAll hb, rfl⟩

/-- **A decided guard and its canonical form have the same truth value.** -/
theorem Guard.eval_canonical : ∀ {g : Guard} {b : Bool},
    g.eval sem env = some b → g.canonical.eval sem env = some b
  | .const _, _, h => by rw [Guard.canonical]; exact h
  | .compare op l r, b, h => by
    obtain ⟨x, hx, y, hy, hxy⟩ := Guard.eval_compare_eq_some.mp h
    rw [Guard.canonical]
    exact Guard.eval_ofCompare (Value.eval_canonical hx) (Value.eval_canonical hy) hxy
  | .not g, b, h => by
    rw [Guard.canonical, Guard.eval_negate, Guard.eval_canonical (Guard.eval_not_eq_some.mp h)]
    simp
  | .junction j parts, b, h => by
    rw [Guard.canonical]
    rw [Guard.eval] at h
    exact Junction.eval_join (Guard.evalJunction_canonicalAll h)
  | .affix side part text, b, h => by
    obtain ⟨p, hp, t, ht, rfl⟩ := Guard.eval_affix_eq_some.mp h
    rw [Guard.canonical]
    exact Guard.eval_ofAffix (Value.eval_canonical hp) (Value.eval_canonical ht)

theorem Guard.evalJunction_canonicalAll {j : Junction} : ∀ {gs : List Guard} {b : Bool},
    Guard.evalJunction sem env j gs = some b →
      Guard.evalJunction sem env j (Guard.canonicalAll gs) = some b
  | [], _, h => by rw [Guard.canonicalAll]; exact h
  | g :: gs, b, h => by
    rw [Guard.canonicalAll, Guard.evalJunction]
    rw [Guard.evalJunction] at h
    exact Junction.combine_mono (fun _ => Guard.eval_canonical)
      (fun _ => Guard.evalJunction_canonicalAll) h

end

/-! ## 5. Equal results -/

/-- **Canonical forms keep their meaning.**  A decided term, well-sorted or not, has the result of
its canonical form, however integers are read.  Where integers wrap around, the two are undecided
together as well, if the term is well-sorted, its variables are bound and it does not divide. -/
theorem canonical_keeps_meaning (env : Assignment) :
    (∀ (sem : IntSemantics) (g : Guard) (b : Bool),
      g.eval sem env = some b → g.canonical.eval sem env = some b) ∧
    (∀ (sem : IntSemantics) (v : Value) (c : Constant),
      v.eval sem env = some c → v.canonical.eval sem env = some c) ∧
    ∀ bits : UInt32,
      (∀ g : Guard, g.check = .ok () → env.Binds g.occurrences →
        (∀ n ∈ g.arithNodes, n.divisionFree = true) →
          g.canonical.eval (.wrapping bits) env = g.eval (.wrapping bits) env) ∧
      (∀ (v : Value) (s : ValueSort), v.sort = .ok s → env.Binds v.occurrences →
        (∀ n ∈ v.arithNodes, n.divisionFree = true) →
          v.canonical.eval (.wrapping bits) env = v.eval (.wrapping bits) env) := by
  refine ⟨fun _ _ _ => Guard.eval_canonical, fun _ _ _ => Value.eval_canonical, fun bits => ?_⟩
  constructor
  · intro g hg hb hdiv
    obtain ⟨b, hbg⟩ := Guard.exists_eval hg hb
      fun n hn => ArithNode.defined_of_divisionFree (hdiv n hn)
    rw [hbg]
    exact Guard.eval_canonical hbg
  · intro v s hv hb hdiv
    obtain ⟨c, hc⟩ := Value.exists_eval hv hb
      fun n hn => ArithNode.defined_of_divisionFree (hdiv n hn)
    rw [hc]
    exact Value.eval_canonical hc

/-- A guard on which most rewritings do something: a comparison with itself, a sum that wraps
around, nested concatenations and a negated conjunction. -/
def tangled : Guard :=
  .not (.all [.compare .eq (.intVar "n") (.intVar "n"),
    .compare .lt (.int 0) (.arith .add (.intVar "n") (.int 100)),
    .affix .start (.str "/tmp") (.concat [.concat [.stringVar "dir", .str ""], .str "x"])])

theorem canonical_keeps_meaning_tangled :
    let env : Assignment := .ofList [("n", .int 100), ("dir", .str "/tmp")]
    let v : Value := .ite tangled (.concat [.str "a", .str "b"]) (.str "c")
    tangled.check = .ok () ∧ env.Binds tangled.occurrences ∧ tangled.canonical ≠ tangled ∧
      tangled.canonical.eval (.wrapping 8) env = tangled.eval (.wrapping 8) env ∧
      tangled.canonical.eval .unbounded env = some false ∧
      v.canonical.eval (.wrapping 8) env = v.eval (.wrapping 8) env ∧
      v.canonical.eval .unbounded env = some (.str "c") := by
  intro env v
  obtain ⟨hguard, hvalue, hequal⟩ := canonical_keeps_meaning env
  obtain ⟨hguardEq, hvalueEq⟩ := hequal 8
  refine ⟨rfl, by decide, by decide +kernel, ?_, ?_, ?_, ?_⟩
  · exact hguardEq tangled rfl (by decide) (by decide)
  · exact hguard .unbounded tangled false (by decide)
  · exact hvalueEq v .string rfl (by decide) (by decide)
  · exact hvalue .unbounded v (.str "c") (by decide)

end SinkReach
