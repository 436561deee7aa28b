/-
# Alternatives are sound and complete

The alternatives of a pattern on a value say exactly what the pattern says: one of them can be made
true by a choice of the fresh variables alone if and only if the text of the value is accepted, and
the `k`-th if and only if it is accepted by a match that begins in the `k`-th part.

* What it means for one alternative to be true is `Pattern.eval_alignment_true`.  From there
  soundness is reading a match off the fresh variables.
* Completeness is writing a match into them: `Pattern.exists_eval_pieces` fills in the wildcards
  one by one, and `exists_append_of_length_le` cuts the text at the part where the match begins.

Both directions need that the value does not notice the choice, which is what fresh names are for
(`Pattern.AgreesOff`).
-/
import SinkReach.Proofs.Canonical.Variables
import SinkReach.Proofs.Pattern.Construction
import SinkReach.Proofs.Pattern.Language

namespace SinkReach

variable {sem : IntSemantics} {env env' : Assignment}

/-! ## 1. Cutting texts -/

/-- Of two ways to cut one text, the longer first piece begins with the shorter one. -/
theorem exists_append_of_length_le {a b c d : String} (h : a ++ b = c ++ d)
    (hle : a.length ≤ c.length) : ∃ m, c = a ++ m ∧ b = m ++ d := by
  have hchars : a.toList ++ b.toList = c.toList ++ d.toList := by
    rw [← String.toList_append, ← String.toList_append, h]
  rcases List.append_eq_append_iff.mp hchars with ⟨m, hc, hb⟩ | ⟨m, ha, hd⟩
  · refine ⟨.ofList m, String.toList_inj.mp ?_, String.toList_inj.mp ?_⟩
    · simp [hc]
    · simp [hb]
  · have hlen : a.length = c.length + m.length := by
      rw [← String.length_toList, ha, List.length_append, String.length_toList]
    obtain rfl : m = [] := List.eq_nil_of_length_eq_zero (by omega)
    refine ⟨"", String.toList_inj.mp ?_, String.toList_inj.mp ?_⟩
    · simp [ha]
    · simp [hd]

/-- Where a text is made of parts, every position in it lies in one of them, or between two. -/
theorem Value.exists_part_at : ∀ {vs : List Value} {s : String} {n : Nat}, vs ≠ [] →
    Value.evalText sem env vs = some s → n ≤ s.length →
      ∃ k before upto, k < vs.length ∧ Value.evalText sem env (vs.take k) = some before ∧
        Value.evalText sem env (vs.take (k + 1)) = some upto ∧
          before.length ≤ n ∧ n ≤ upto.length
  | [], _, _, hne, _, _ => absurd rfl hne
  | v :: vs, s, n, _, hs, hn => by
    obtain ⟨a, ha, b, hb, rfl⟩ := Value.evalText_cons_eq_some.mp hs
    by_cases hna : n ≤ a.length
    · refine ⟨0, "", a, by simp, rfl, ?_, by simp, hna⟩
      exact Value.evalText_cons_eq_some.mpr ⟨a, ha, "", rfl, by simp⟩
    · -- The position is past the first part, so there is a second one.
      have hvs : vs ≠ [] := by
        rintro rfl
        obtain rfl : "" = b := Option.some.inj hb
        simp at hn
        omega
      have hn' : n - a.length ≤ b.length := by
        rw [String.length_append] at hn
        omega
      obtain ⟨k, before, upto, hk, hbefore, hupto, hlo, hhi⟩ :=
        Value.exists_part_at hvs hb hn'
      refine ⟨k + 1, a ++ before, a ++ upto, by simpa using hk, ?_, ?_, ?_, ?_⟩
      · exact Value.evalText_cons_eq_some.mpr ⟨a, ha, before, hbefore, rfl⟩
      · exact Value.evalText_cons_eq_some.mpr ⟨a, ha, upto, hupto, rfl⟩
      · rw [String.length_append]
        omega
      · rw [String.length_append]
        omega

/-- A text that is made of parts, seen from one of them. -/
theorem Value.evalText_around : ∀ {parts : List Value} {k : Nat} {part : Value} {s : String},
    parts[k]? = some part → Value.evalText sem env parts = some s →
      ∃ before x tail, Value.evalText sem env (parts.take k) = some before ∧
        part.eval sem env = some (.str x) ∧
        Value.evalText sem env (parts.drop (k + 1)) = some tail ∧
        Value.evalText sem env (parts.take (k + 1)) = some (before ++ x) ∧
        s = before ++ (x ++ tail)
  | [], k, part, s, hk, _ => by simp at hk
  | w :: rest, 0, part, s, hk, hs => by
    obtain rfl : w = part := by simpa using hk
    obtain ⟨x, hx, tail, htail, rfl⟩ := Value.evalText_cons_eq_some.mp hs
    refine ⟨"", x, tail, rfl, hx, htail, ?_, by simp⟩
    exact Value.evalText_cons_eq_some.mpr ⟨x, hx, "", rfl, by simp⟩
  | w :: rest, k + 1, part, s, hk, hs => by
    obtain ⟨a, ha, b, hb, rfl⟩ := Value.evalText_cons_eq_some.mp hs
    obtain ⟨before, x, tail, hbefore, hx, htail, hupto, rfl⟩ :=
      Value.evalText_around (by simpa using hk) hb
    refine ⟨a ++ before, x, tail, ?_, hx, htail, ?_, by rw [String.append_assoc]⟩
    · exact Value.evalText_cons_eq_some.mpr ⟨a, ha, before, hbefore, rfl⟩
    · exact Value.evalText_cons_eq_some.mpr
        ⟨a, ha, before ++ x, hupto, by rw [String.append_assoc]⟩

/-! ## 2. The parts of a value -/

/-- The top-level parts of a value have the text of the value. -/
theorem Value.evalText_topParts {v : Value} {s : String}
    (h : v.eval sem env = some (.str s)) : Value.evalText sem env v.topParts = some s := by
  have hc := Value.eval_canonical h
  unfold Value.topParts
  split
  · next parts heq =>
    rw [heq] at hc
    obtain ⟨t, ht, hts⟩ := Value.eval_concat_eq_some.mp hc
    rw [ht, Constant.str.inj hts]
  · next t heq =>
    obtain rfl : t = s := by
      rw [heq] at hc
      simpa [Value.eval, Constant.eval] using hc
    split
    · next hempty => rw [hempty]; rfl
    · exact Value.evalText_cons_eq_some.mpr ⟨t, rfl, "", rfl, by simp⟩
  · exact Value.evalText_cons_eq_some.mpr ⟨s, hc, "", rfl, by simp⟩

namespace Pattern

theorem searchParts_ne_nil (v : Value) : searchParts v ≠ [] := by
  unfold searchParts
  split
  · simp
  · next parts hne => exact hne

theorem evalText_searchParts {v : Value} {s : String} (h : v.eval sem env = some (.str s)) :
    Value.evalText sem env (searchParts v) = some s := by
  have hparts := Value.evalText_topParts h
  unfold searchParts
  split
  · next heq =>
    rw [heq] at hparts
    obtain rfl : "" = s := Option.some.inj hparts
    rfl
  · exact hparts

theorem occurrences_searchParts {v part : Value} (h : part ∈ searchParts v) :
    part.occurrences ⊆ v.occurrences := by
  unfold searchParts at h
  split at h
  · obtain rfl := List.mem_singleton.mp h
    exact List.nil_subset _
  · exact Value.occurrences_topParts h

end Pattern

/-! ## 3. True equations -/

/-- An equation holds of constants that are the same, whatever their sort. -/
theorem CompareOp.eval_eq_true {x y : Constant} :
    CompareOp.eval .eq x y = some true ↔ x = y := by
  cases x <;> cases y <;>
    simp [CompareOp.eval, CompareOp.holds, CompareOp.isEquality, Int64.toInt_inj]

theorem Guard.eval_eq_true {l r : Value} :
    (Guard.compare .eq l r).eval sem env = some true
      ↔ ∃ c, l.eval sem env = some c ∧ r.eval sem env = some c := by
  rw [Guard.eval_compare_eq_some]
  constructor
  · rintro ⟨x, hx, y, hy, hxy⟩
    obtain rfl := CompareOp.eval_eq_true.mp hxy
    exact ⟨x, hx, hy⟩
  · rintro ⟨c, hl, hr⟩
    exact ⟨c, hl, c, hr, CompareOp.eval_eq_true.mpr rfl⟩

/-- An equation between texts is true if they are the same, and false if not. -/
theorem Guard.eval_eq_of_str {l r : Value} {a c : String}
    (hl : l.eval sem env = some (.str a)) (hr : r.eval sem env = some (.str c)) :
    (Guard.compare .eq l r).eval sem env = some (decide (a = c)) := by
  obtain ⟨x, hx⟩ := @CompareOp.exists_eval .eq (.str a) (.str c) rfl fun _ => rfl
  have htrue : x = true ↔ a = c := by
    rw [← Option.some_inj, ← hx, CompareOp.eval_eq_true, Constant.str.injEq]
  rw [← Bool.eq_iff_iff.mpr (htrue.trans decide_eq_true_iff.symm)]
  exact Guard.eval_compare_eq_some.mpr ⟨_, hl, _, hr, hx⟩

/-- An equation between texts is decided. -/
theorem Guard.exists_eval_eq_of_str {l r : Value} {a c : String}
    (hl : l.eval sem env = some (.str a)) (hr : r.eval sem env = some (.str c)) :
    ∃ x, (Guard.compare .eq l r).eval sem env = some x :=
  ⟨_, Guard.eval_eq_of_str hl hr⟩

theorem Guard.eval_all_true {gs : List Guard} :
    (Guard.all gs).eval sem env = some true ↔ ∀ g ∈ gs, g.eval sem env = some true := by
  rw [Guard.eval]
  exact Guard.evalJunction_eq_neutral (j := .all)

theorem Value.eval_stringVar {name a : String} :
    (Value.stringVar name).eval sem env = some (.str a) ↔ env.find? name = some (.str a) := by
  rw [Value.stringVar, Value.eval, Assignment.read_eq_some]
  exact and_iff_left rfl

theorem Value.evalText_pair {v w : Value} {s : String} :
    Value.evalText sem env [v, w] = some s
      ↔ ∃ a, v.eval sem env = some (.str a) ∧ ∃ b, w.eval sem env = some (.str b) ∧ a ++ b = s := by
  rw [Value.evalText_cons_eq_some]
  constructor
  · rintro ⟨a, ha, t, ht, rfl⟩
    obtain ⟨b, hb, e, he, rfl⟩ := Value.evalText_cons_eq_some.mp ht
    obtain rfl : "" = e := Option.some.inj he
    exact ⟨a, ha, b, hb, by rw [String.append_empty]⟩
  · rintro ⟨a, ha, b, hb, rfl⟩
    exact ⟨a, ha, b, Value.evalText_cons_eq_some.mpr ⟨b, hb, "", rfl, String.append_empty⟩, rfl⟩

namespace Pattern

/-- **What it means for an alignment to be true**: the part is `a ++ b`, and `b` with all that
follows the part is an instance of the template, the text `u`, and whatever is left. -/
theorem eval_alignment_true {p : Pattern} {k : Nat} {part : Value} {after : List Value} :
    (p.alignment k part after).eval sem env = some true ↔
      ∃ a b c u tail, env.find? (p.freshName "pre" k) = some (.str a) ∧
        env.find? (p.freshName "rest" k) = some (.str b) ∧
        env.find? (p.freshName "post" k) = some (.str c) ∧
        part.eval sem env = some (.str (a ++ b)) ∧
        Value.evalText sem env after = some tail ∧
        Value.evalText sem env (p.pieces 0 p.template) = some u ∧ b ++ tail = u ++ c := by
  rw [alignment, Guard.eval_all_true]
  constructor
  · intro h
    obtain ⟨x, hpart, hcut⟩ := Guard.eval_eq_true.mp (h _ (.head _))
    obtain ⟨y, htail, hmatch⟩ := Guard.eval_eq_true.mp (h _ (.tail _ (.head _)))
    obtain ⟨_, hcut', rfl⟩ := Value.eval_concat_eq_some.mp hcut
    obtain ⟨_, htail', rfl⟩ := Value.eval_concat_eq_some.mp htail
    obtain ⟨_, hmatch', hsame⟩ := Value.eval_concat_eq_some.mp hmatch
    obtain ⟨a, ha, b, hb, rfl⟩ := Value.evalText_pair.mp hcut'
    obtain ⟨b', hb', tail, hafter, rfl⟩ := Value.evalText_cons_eq_some.mp htail'
    obtain ⟨u, hu, c, hc, rfl⟩ := Value.evalText_pair.mp hmatch'
    obtain ⟨u', hpieces, hu'⟩ := Value.eval_concat_eq_some.mp hu
    obtain rfl := Constant.str.inj hu'
    obtain rfl : b = b' := Constant.str.inj (Option.some.inj (hb.symm.trans hb'))
    exact ⟨a, b, c, u', tail, Value.eval_stringVar.mp ha, Value.eval_stringVar.mp hb,
      Value.eval_stringVar.mp hc, hpart, hafter, hpieces, (Constant.str.inj hsame).symm⟩
  · rintro ⟨a, b, c, u, tail, ha, hb, hc, hpart, hafter, hu, hsame⟩ g hg
    rw [← Value.eval_stringVar] at ha hb hc
    rcases List.mem_cons.mp hg with rfl | hg
    · exact Guard.eval_eq_true.mpr ⟨_, hpart, Value.eval_concat_eq_some.mpr
        ⟨_, Value.evalText_pair.mpr ⟨a, ha, b, hb, rfl⟩, rfl⟩⟩
    · obtain rfl := List.mem_singleton.mp hg
      refine Guard.eval_eq_true.mpr ⟨.str (b ++ tail), Value.eval_concat_eq_some.mpr
        ⟨_, Value.evalText_cons_eq_some.mpr ⟨b, hb, tail, hafter, rfl⟩, rfl⟩, ?_⟩
      refine Value.eval_concat_eq_some.mpr
        ⟨_, Value.evalText_pair.mpr ⟨u, ?_, c, hc, hsame.symm⟩, rfl⟩
      exact Value.eval_concat_eq_some.mpr ⟨u, hu, rfl⟩

/-! ## 4. Pieces and instances -/

/-- Whatever the wildcards stand for, the pieces of a template make an instance of it. -/
theorem instance_of_eval_pieces {p : Pattern} : ∀ {t : Template} {k : Nat} {u : String},
    Value.evalText sem env (p.pieces k t) = some u → t.Instance u
  | [], k, u, h => by
    obtain rfl : "" = u := Option.some.inj h
    exact .nil
  | .literal s :: rest, k, u, h => by
    obtain ⟨a, ha, b, hb, rfl⟩ := Value.evalText_cons_eq_some.mp h
    obtain rfl : s = a := by simpa [Value.eval, Constant.eval] using ha
    exact .literal s (instance_of_eval_pieces hb)
  | .wildcard :: rest, k, u, h => by
    obtain ⟨a, -, b, hb, rfl⟩ := Value.evalText_cons_eq_some.mp h
    exact .wildcard a (instance_of_eval_pieces hb)

theorem occurrences_pieces {p : Pattern} : ∀ {t : Template} {k : Nat} {q : String × ValueSort},
    q ∈ Value.occurrencesIn (p.pieces k t) →
      ∃ i < t.wildcards, q = (p.freshName "w" (k + i), .string)
  | [], k, q, h => by simp [pieces, Value.occurrencesIn] at h
  | .literal s :: rest, k, q, h => by
    rw [wildcards_literal]
    exact occurrences_pieces (by simpa [pieces, Value.occurrencesIn, Value.occurrences] using h)
  | .wildcard :: rest, k, q, h => by
    rw [wildcards_wildcard]
    rcases List.mem_append.mp h with h | h
    · obtain rfl := List.mem_singleton.mp h
      exact ⟨0, by omega, rfl⟩
    · obtain ⟨i, hi, rfl⟩ := occurrences_pieces h
      exact ⟨i + 1, by omega, by rw [Nat.add_right_comm, Nat.add_assoc]⟩

/-- **Every instance can be written into the wildcards**, without touching another variable. -/
theorem exists_eval_pieces {p : Pattern} (env : Assignment) {t : Template} {u : String}
    (h : t.Instance u) : ∀ k, ∃ env' : Assignment,
      (∀ name, (∀ i < t.wildcards, name ≠ p.freshName "w" (k + i)) →
        env'.find? name = env.find? name) ∧
      Value.evalText sem env' (p.pieces k t) = some u := by
  induction h with
  | nil => exact fun k => ⟨env, fun _ _ => rfl, rfl⟩
  | @literal l t s h ih =>
    intro k
    obtain ⟨env', hkeep, heval⟩ := ih k
    rw [wildcards_literal]
    exact ⟨env', hkeep, Value.evalText_cons_eq_some.mpr ⟨l, rfl, s, heval, rfl⟩⟩
  | @wildcard w t s h ih =>
    intro k
    obtain ⟨env', hkeep, heval⟩ := ih (k + 1)
    refine ⟨env'.insert (p.freshName "w" k) (.str w), ?_, ?_⟩
    · intro name hname
      have hne : name ≠ p.freshName "w" k := hname 0 (by rw [wildcards_wildcard]; omega)
      rw [Bindings.find?_insert, if_neg hne]
      refine hkeep name fun i hi => ?_
      rw [Nat.add_assoc, Nat.add_comm 1]
      exact hname (i + 1) (by rw [wildcards_wildcard]; omega)
    · refine Value.evalText_cons_eq_some.mpr ⟨w, ?_, s, ?_, rfl⟩
      · rw [Value.eval_stringVar, Bindings.find?_insert, if_pos rfl]
      · -- The later wildcards have other names, so they keep what they stand for.
        rw [← heval]
        refine (Value.evalText_congr fun q hq => ?_).symm
        obtain ⟨i, -, rfl⟩ := occurrences_pieces hq
        rw [Bindings.find?_insert, if_neg fun heq => ?_]
        have := freshName_injective heq
        omega

/-! ## 5. Choosing the fresh variables -/

/-- The second assignment differs from the first on fresh variables only. -/
def AgreesOff (p : Pattern) (v : Value) (env env' : Assignment) : Prop :=
  ∀ name ∉ p.freshNames v, env'.find? name = env.find? name

/-- The guard becomes true when the fresh variables are chosen well. -/
def CanHold (p : Pattern) (v : Value) (sem : IntSemantics) (env : Assignment) (g : Guard) : Prop :=
  ∃ env', p.AgreesOff v env env' ∧ g.eval sem env' = some true

variable {p : Pattern} {v : Value}

theorem canHold_of_eval {g : Guard} (h : g.eval sem env = some true) : p.CanHold v sem env g :=
  ⟨env, fun _ _ => rfl, h⟩

/-- What uses no fresh variable does not notice the choice. -/
theorem AgreesOff.agreeOn {vars : List (String × ValueSort)} (h : p.AgreesOff v env env')
    (hvars : ∀ q ∈ vars, q.1 ∉ p.freshNames v) : env'.AgreeOn env vars :=
  fun q hq => h q.1 (hvars q hq)

/-- Every instance of the template can be written into the wildcards of the pattern. -/
theorem exists_agreesOff_pieces (v : Value) (env : Assignment) {u : String}
    (h : p.template.Instance u) : ∃ env', p.AgreesOff v env env' ∧
      Value.evalText sem env' (p.pieces 0 p.template) = some u := by
  obtain ⟨env', hkeep, hpieces⟩ := exists_eval_pieces env h 0
  refine ⟨env', fun name hname => hkeep name fun i hi heq => hname ?_, hpieces⟩
  exact mem_freshNames.mpr (.inl ⟨i, hi, by rw [heq, Nat.zero_add]⟩)

/-- **Where the whole value is to match**, the one alternative can hold exactly if it is an
instance. -/
theorem canHold_exact {s : String} (hfree : ∀ q ∈ v.occurrences, q.1 ∉ p.freshNames v)
    (hv : v.eval sem env = some (.str s)) :
    p.CanHold v sem env (.compare .eq v (.concat (p.pieces 0 p.template)))
      ↔ p.template.Instance s := by
  constructor
  · rintro ⟨env', hoff, htrue⟩
    obtain ⟨c, hc, hpieces⟩ := Guard.eval_eq_true.mp htrue
    rw [Value.eval_congr (hoff.agreeOn hfree), hv] at hc
    obtain rfl := Option.some.inj hc
    obtain ⟨u, hu, hus⟩ := Value.eval_concat_eq_some.mp hpieces
    obtain rfl := Constant.str.inj hus
    exact instance_of_eval_pieces hu
  · intro hinst
    obtain ⟨env', hoff, hpieces⟩ := exists_agreesOff_pieces v env hinst
    refine ⟨env', hoff, Guard.eval_eq_true.mpr ⟨.str s, ?_, ?_⟩⟩
    · rw [Value.eval_congr (hoff.agreeOn hfree), hv]
    · exact Value.eval_concat_eq_some.mpr ⟨s, hpieces, rfl⟩

/-- A match inside `x ++ tail` that begins in `x`, seen from the outside: in the whole text it
begins between the ends of `x`. -/
theorem match_begins_iff {t : Template} {before x tail : String} :
    (∃ a b u c, t.Instance u ∧ x = a ++ b ∧ b ++ tail = u ++ c) ↔
      ∃ A T B, t.Instance T ∧ before ++ (x ++ tail) = A ++ T ++ B ∧
        before.length ≤ A.length ∧ A.length ≤ (before ++ x).length := by
  constructor
  · rintro ⟨a, b, u, c, hu, rfl, hsame⟩
    refine ⟨before ++ a, u, c, hu, ?_, ?_, ?_⟩
    · rw [@String.append_assoc a, hsame]
      simp only [String.append_assoc]
    · rw [String.length_append]
      omega
    · simp only [String.length_append]
      omega
  · rintro ⟨A, T, B, hT, hs, hlo, hhi⟩
    rw [String.append_assoc] at hs
    obtain ⟨a, rfl, hrest⟩ := exists_append_of_length_le hs hlo
    rw [String.length_append, String.length_append] at hhi
    obtain ⟨b, rfl, htail⟩ := exists_append_of_length_le hrest.symm (by omega)
    exact ⟨a, b, T, B, hT, rfl, htail.symm⟩

/-- The three texts of an alignment can be written down without touching another variable. -/
theorem exists_find?_alignment (p : Pattern) (env : Assignment) (k : Nat) (a b c : String) :
    ∃ env' : Assignment,
      (∀ name ∉ [p.freshName "pre" k, p.freshName "rest" k, p.freshName "post" k],
        env'.find? name = env.find? name) ∧
      env'.find? (p.freshName "pre" k) = some (.str a) ∧
      env'.find? (p.freshName "rest" k) = some (.str b) ∧
      env'.find? (p.freshName "post" k) = some (.str c) := by
  have h₁ : p.freshName "pre" k ≠ p.freshName "rest" k :=
    freshName_ne (by decide) (by decide) (by decide) k k
  have h₂ : p.freshName "pre" k ≠ p.freshName "post" k :=
    freshName_ne (by decide) (by decide) (by decide) k k
  have h₃ : p.freshName "rest" k ≠ p.freshName "post" k :=
    freshName_ne (by decide) (by decide) (by decide) k k
  refine ⟨((env.insert (p.freshName "pre" k) (.str a)).insert (p.freshName "rest" k)
    (.str b)).insert (p.freshName "post" k) (.str c), ?_, ?_, ?_, ?_⟩
  · intro name hname
    simp only [List.mem_cons, List.not_mem_nil, or_false, not_or] at hname
    simp only [Bindings.find?_insert, hname, if_false]
  · simp only [Bindings.find?_insert, h₁, h₂, if_false, if_true]
  · simp only [Bindings.find?_insert, h₃, if_false, if_true]
  · simp only [Bindings.find?_insert, if_true]

/-- **Where the match may begin anywhere**, the alternative of a part can hold exactly if a match
begins in the part. -/
theorem canHold_alignment {k : Nat} {part : Value} {after : List Value} {x tail : String}
    (hmode : p.mode = .contains) (hk : k < (searchParts v).length)
    (hpartFree : ∀ q ∈ part.occurrences, q.1 ∉ p.freshNames v)
    (hafterFree : ∀ q ∈ Value.occurrencesIn after, q.1 ∉ p.freshNames v)
    (hpart : part.eval sem env = some (.str x))
    (hafter : Value.evalText sem env after = some tail) :
    p.CanHold v sem env (p.alignment k part after) ↔
      ∃ a b u c, p.template.Instance u ∧ x = a ++ b ∧ b ++ tail = u ++ c := by
  constructor
  · rintro ⟨env', hoff, htrue⟩
    obtain ⟨a, b, c, u, tail', -, -, -, hx, htail, hu, hsame⟩ := eval_alignment_true.mp htrue
    rw [Value.eval_congr (hoff.agreeOn hpartFree), hpart] at hx
    rw [Value.evalText_congr (hoff.agreeOn hafterFree), hafter] at htail
    obtain rfl := Option.some.inj htail
    exact ⟨a, b, u, c, instance_of_eval_pieces hu, Constant.str.inj (Option.some.inj hx), hsame⟩
  · rintro ⟨a, b, u, c, hu, rfl, hsame⟩
    obtain ⟨env₁, hoff₁, hpieces⟩ := exists_agreesOff_pieces v env hu
    obtain ⟨env', hkeep, hpre, hrest, hpost⟩ := exists_find?_alignment p env₁ k a b c
    have hoff : p.AgreesOff v env env' := by
      intro name hname
      rw [hkeep name fun h => hname (mem_freshNames.mpr (.inr ⟨hmode, k, hk, h⟩)),
        hoff₁ name hname]
    have hsameWild : env'.AgreeOn env₁ (Value.occurrencesIn (p.pieces 0 p.template)) := by
      intro q hq
      obtain ⟨i, -, rfl⟩ := occurrences_pieces hq
      refine hkeep _ fun h => ?_
      simp only [List.mem_cons, List.not_mem_nil, or_false] at h
      rcases h with h | h | h <;>
        exact freshName_ne (by decide) (by decide) (by decide) _ _ h
    refine ⟨env', hoff, eval_alignment_true.mpr
      ⟨a, b, c, u, tail, hpre, hrest, hpost, ?_, ?_, ?_, hsame⟩⟩
    · rw [Value.eval_congr (hoff.agreeOn hpartFree), hpart]
    · rw [Value.evalText_congr (hoff.agreeOn hafterFree), hafter]
    · rw [Value.evalText_congr hsameWild, hpieces]

/-! ## 6. The alternatives of a value -/

theorem length_alignmentsFrom : ∀ (j : Nat) (parts : List Value),
    (p.alignmentsFrom j parts).length = parts.length
  | _, [] => rfl
  | j, part :: after => by
    rw [alignmentsFrom, List.length_cons, List.length_cons, length_alignmentsFrom (j + 1) after]

theorem getElem?_alignmentsFrom : ∀ (j : Nat) (parts : List Value) (k : Nat),
    (p.alignmentsFrom j parts)[k]? =
      parts[k]?.map fun part => p.alignment (j + k) part (parts.drop (k + 1))
  | _, [], _ => rfl
  | _, _ :: _, 0 => rfl
  | j, part :: after, k + 1 => by
    rw [alignmentsFrom, List.getElem?_cons_succ, List.getElem?_cons_succ,
      getElem?_alignmentsFrom (j + 1) after k, Nat.add_right_comm, Nat.add_assoc]
    rfl

/-- **What the alternative of the `k`-th part says**: an instance stands in the text, and it begins
between the ends of the part. -/
theorem canHold_getElem? {s : String} {k : Nat} {g : Guard} (hmode : p.mode = .contains)
    (hfree : ∀ q ∈ v.occurrences, q.1 ∉ p.freshNames v) (hv : v.eval sem env = some (.str s))
    (hg : (p.alignmentsFrom 0 (searchParts v))[k]? = some g) :
    ∃ before upto, Value.evalText sem env ((searchParts v).take k) = some before ∧
      Value.evalText sem env ((searchParts v).take (k + 1)) = some upto ∧
      (p.CanHold v sem env g ↔ ∃ A T B, p.template.Instance T ∧ s = A ++ T ++ B ∧
        before.length ≤ A.length ∧ A.length ≤ upto.length) := by
  rw [getElem?_alignmentsFrom, Nat.zero_add, Option.map_eq_some_iff] at hg
  obtain ⟨part, hpart, rfl⟩ := hg
  obtain ⟨before, x, tail, hbefore, hx, htail, hupto, rfl⟩ :=
    Value.evalText_around hpart (evalText_searchParts hv)
  obtain ⟨hk, hget⟩ := List.getElem?_eq_some_iff.mp hpart
  have hpartFree : ∀ q ∈ part.occurrences, q.1 ∉ p.freshNames v :=
    fun q hq => hfree q (occurrences_searchParts (hget ▸ List.getElem_mem hk) hq)
  have hafterFree : ∀ q ∈ Value.occurrencesIn ((searchParts v).drop (k + 1)),
      q.1 ∉ p.freshNames v := by
    intro q hq
    obtain ⟨w, hw, hqw⟩ := Value.mem_occurrencesIn.mp hq
    exact hfree q (occurrences_searchParts (List.mem_of_mem_drop hw) hqw)
  refine ⟨before, before ++ x, hbefore, hupto, ?_⟩
  rw [canHold_alignment hmode hk hpartFree hafterFree hx htail]
  exact match_begins_iff

/-- Wherever an instance stands in the text, it begins in one of the parts. -/
theorem exists_canHold_alignmentsFrom {s : String} (hmode : p.mode = .contains)
    (hfree : ∀ q ∈ v.occurrences, q.1 ∉ p.freshNames v) (hv : v.eval sem env = some (.str s)) :
    (∃ g ∈ p.alignmentsFrom 0 (searchParts v), p.CanHold v sem env g)
      ↔ p.template.OccursIn s := by
  constructor
  · rintro ⟨g, hg, hhold⟩
    obtain ⟨k, hk⟩ := List.mem_iff_getElem?.mp hg
    obtain ⟨before, upto, -, -, hiff⟩ := canHold_getElem? hmode hfree hv hk
    obtain ⟨A, T, B, hT, hs, -, -⟩ := hiff.mp hhold
    exact ⟨A, T, B, hT, hs⟩
  · rintro ⟨A, T, B, hT, rfl⟩
    have hA : A.length ≤ (A ++ T ++ B).length := by
      rw [String.length_append, String.length_append]
      omega
    obtain ⟨k, before, upto, hk, hbefore, hupto, hlo, hhi⟩ :=
      Value.exists_part_at (searchParts_ne_nil v) (evalText_searchParts hv) hA
    rw [← length_alignmentsFrom (p := p) 0 (searchParts v)] at hk
    have hget := List.getElem?_eq_getElem hk
    obtain ⟨before', upto', hbefore', hupto', hiff⟩ := canHold_getElem? hmode hfree hv hget
    obtain rfl := Option.some.inj (hbefore.symm.trans hbefore')
    obtain rfl := Option.some.inj (hupto.symm.trans hupto')
    exact ⟨_, List.getElem_mem hk, hiff.mpr ⟨A, T, B, hT, rfl, hlo, hhi⟩⟩

/-- In either mode, some alternative can hold exactly if the text is in the language. -/
theorem exists_canHold_iff_accepts {s : String}
    (hfree : ∀ q ∈ v.occurrences, q.1 ∉ p.freshNames v) (hv : v.eval sem env = some (.str s)) :
    (∃ g ∈ p.alternativesOf v, p.CanHold v sem env g) ↔ p.Accepts s := by
  unfold alternativesOf
  split
  · next hmode =>
    rw [accepts_exact hmode, ← canHold_exact hfree hv]
    simp
  · next hmode =>
    rw [accepts_contains hmode]
    exact exists_canHold_alignmentsFrom hmode hfree hv

/-- **The alternatives are sound and complete.**  An exact pattern has one, which can hold exactly
if the text is an instance.  A pattern that is searched for has one for each part of the value;
the `k`-th can hold exactly if an instance begins in the `k`-th part, and so some one can exactly
if an instance occurs anywhere. -/
theorem alternatives_sound_and_complete {path : Guard} {alts : List Guard} {s : String}
    (sem : IntSemantics) (env : Assignment) (h : p.alternatives v path = .ok alts)
    (hv : v.eval sem env = some (.str s)) :
    (p.mode = .exact →
      ∃ g, alts = [g] ∧ (p.CanHold v sem env g ↔ p.template.Instance s)) ∧
    (p.mode = .contains →
      alts.length = (searchParts v).length ∧
      (∀ k g, alts[k]? = some g →
        ∃ before upto, Value.evalText sem env ((searchParts v).take k) = some before ∧
          Value.evalText sem env ((searchParts v).take (k + 1)) = some upto ∧
          (p.CanHold v sem env g ↔ ∃ A T B, p.template.Instance T ∧ s = A ++ T ++ B ∧
            before.length ≤ A.length ∧ A.length ≤ upto.length)) ∧
      ((∃ g ∈ alts, p.CanHold v sem env g) ↔ p.template.OccursIn s)) := by
  obtain ⟨-, rfl, hfree⟩ := alternatives_eq_ok h
  have hfree : ∀ q ∈ v.occurrences, q.1 ∉ p.freshNames v :=
    fun q hq => hfree q (List.mem_append_left _ hq)
  unfold alternativesOf
  constructor
  · intro hmode
    rw [hmode]
    exact ⟨_, rfl, canHold_exact hfree hv⟩
  · intro hmode
    rw [hmode]
    exact ⟨length_alignmentsFrom 0 _, fun k g hg => canHold_getElem? hmode hfree hv hg,
      exists_canHold_alignmentsFrom hmode hfree hv⟩

/-- Memory of some process, wherever it stands in a path. -/
def procMem : Pattern :=
  ⟨"mem", [.literal "/proc/", .wildcard, .literal "/mem"], .contains, [], none⟩

/-- With `/proc/7` for the directory, a match begins in the first part of `dir ++ "/mem"` and ends
in the second, so the first alternative can hold and the second cannot. -/
theorem alternatives_of_split_match :
    let v : Value := .concat [.stringVar "dir", .str "/mem"]
    let env : Assignment := .ofList [("dir", .str "/proc/7")]
    let first := procMem.alignment 0 (.stringVar "dir") [.str "/mem"]
    let second := procMem.alignment 1 (.str "/mem") []
    procMem.alternatives v (.const true) = .ok [first, second] ∧
      v.eval .unbounded env = some (.str "/proc/7/mem") ∧
      procMem.CanHold v .unbounded env first ∧ ¬ procMem.CanHold v .unbounded env second := by
  intro v env first second
  have hbuilt : procMem.alternatives v (.const true) = .ok [first, second] := rfl
  have hv : v.eval .unbounded env = some (.str "/proc/7/mem") := rfl
  obtain ⟨-, hk, -⟩ := (alternatives_sound_and_complete .unbounded env hbuilt hv).2 rfl
  refine ⟨hbuilt, hv, ?_, ?_⟩
  · obtain ⟨before, upto, hbefore, -, hiff⟩ := hk 0 first rfl
    obtain rfl : "" = before := Option.some.inj hbefore
    refine hiff.mpr ⟨"", "/proc/7/mem", "", ?_, by decide, Nat.le_refl _, Nat.zero_le _⟩
    exact .literal "/proc/" (.wildcard "7" (.literal "/mem" .nil))
  · obtain ⟨before, upto, hbefore, -, hiff⟩ := hk 1 second rfl
    obtain rfl : "/proc/7" = before := Option.some.inj hbefore
    intro hhold
    obtain ⟨A, T, B, hT, hs, hA, -⟩ := hiff.mp hhold
    -- An instance has ten characters at least, and four are left.
    cases hT with
    | literal _ hT => cases hT with
      | wildcard w hT => cases hT with
        | literal _ hT =>
          have hlen := congrArg String.length hs
          simp only [String.length_append] at hlen
          have h₁ : "/proc/7/mem".length = 11 := rfl
          have h₂ : "/proc/7".length = 7 := rfl
          have h₃ : "/proc/".length = 6 := rfl
          omega

/-! ## 7. Decided alternatives -/

theorem exists_evalText_pieces (sem : IntSemantics) : ∀ {t : Template} {k : Nat},
    env.Binds (Value.occurrencesIn (p.pieces k t)) →
      ∃ u, Value.evalText sem env (p.pieces k t) = some u
  | [], _, _ => ⟨"", rfl⟩
  | .literal l :: rest, k, h => by
    obtain ⟨u, hu⟩ := exists_evalText_pieces sem h.right
    exact ⟨l ++ u, Value.evalText_cons_eq_some.mpr ⟨l, rfl, u, hu, rfl⟩⟩
  | .wildcard :: rest, k, h => by
    obtain ⟨a, ha⟩ := h.left.exists_str
    obtain ⟨u, hu⟩ := exists_evalText_pieces sem h.right
    exact ⟨a ++ u, Value.evalText_cons_eq_some.mpr
      ⟨a, Value.eval_stringVar.mpr ha, u, hu, rfl⟩⟩

theorem exists_eval_alignment {k : Nat} {part : Value} {after : List Value} {x tail : String}
    (hbinds : env.Binds (p.alignment k part after).occurrences)
    (hpart : part.eval sem env = some (.str x))
    (hafter : Value.evalText sem env after = some tail) :
    ∃ c, (p.alignment k part after).eval sem env = some c := by
  have hsplit : env.Binds (Guard.compare .eq part (.concat [.stringVar (p.freshName "pre" k),
    .stringVar (p.freshName "rest" k)])).occurrences := hbinds.left
  have hanchored := hbinds.right.left
  obtain ⟨a, ha⟩ := hsplit.right.left.exists_str
  obtain ⟨b, hb⟩ := hsplit.right.right.left.exists_str
  obtain ⟨u, hu⟩ := exists_evalText_pieces sem hanchored.right.left
  obtain ⟨c, hc⟩ := hanchored.right.right.left.exists_str
  rw [← Value.eval_stringVar] at ha hb hc
  rw [alignment, Guard.eval]
  refine Guard.exists_evalJunction_of_forall fun g hg => ?_
  rcases List.mem_cons.mp hg with rfl | hg
  · exact Guard.exists_eval_eq_of_str hpart (Value.eval_concat_eq_some.mpr
      ⟨_, Value.evalText_pair.mpr ⟨a, ha, b, hb, rfl⟩, rfl⟩)
  · obtain rfl := List.mem_singleton.mp hg
    have htemplate := Value.eval_concat_eq_some.mpr ⟨u, hu, rfl⟩
    exact Guard.exists_eval_eq_of_str
      (Value.eval_concat_eq_some.mpr
        ⟨_, Value.evalText_cons_eq_some.mpr ⟨b, hb, tail, hafter, rfl⟩, rfl⟩)
      (Value.eval_concat_eq_some.mpr
        ⟨_, Value.evalText_pair.mpr ⟨u, htemplate, c, hc, rfl⟩, rfl⟩)

/-- **An alternative is decided** where the value is and its own variables are bound. -/
theorem exists_eval_alternative {k : Nat} {g : Guard} {s : String}
    (hv : v.eval sem env = some (.str s)) (hg : (p.alternativesOf v)[k]? = some g)
    (hbinds : env.Binds g.occurrences) : ∃ c, g.eval sem env = some c := by
  unfold alternativesOf at hg
  split at hg
  · obtain rfl : g = _ := List.mem_singleton.mp (List.mem_of_getElem? hg)
    obtain ⟨u, hu⟩ := exists_evalText_pieces sem hbinds.right
    exact Guard.exists_eval_eq_of_str hv (Value.eval_concat_eq_some.mpr ⟨u, hu, rfl⟩)
  · rw [getElem?_alignmentsFrom, Option.map_eq_some_iff] at hg
    obtain ⟨part, hpart, rfl⟩ := hg
    obtain ⟨before, x, tail, -, hx, htail, -, -⟩ :=
      Value.evalText_around hpart (evalText_searchParts hv)
    exact exists_eval_alignment hbinds hx htail

/-- What an alternative mentions of the value: all of it, or the parts a match that begins in the
`k`-th may reach. -/
theorem occurrences_alternative {k : Nat} {g : Guard} (hg : (p.alternativesOf v)[k]? = some g) :
    (p.mode = .exact → v.occurrences ⊆ g.occurrences) ∧
      (p.mode = .contains → Value.occurrencesIn ((searchParts v).drop k) ⊆ g.occurrences) := by
  unfold alternativesOf at hg
  split at hg
  · next hmode =>
    obtain rfl : g = _ := List.mem_singleton.mp (List.mem_of_getElem? hg)
    exact ⟨fun _ _ hq => List.mem_append_left _ hq, fun h => absurd (hmode.symm.trans h) (by simp)⟩
  · next hmode =>
    refine ⟨fun h => absurd (hmode.symm.trans h) (by simp), fun _ q hq => ?_⟩
    rw [getElem?_alignmentsFrom, Option.map_eq_some_iff] at hg
    obtain ⟨part, hpart, rfl⟩ := hg
    obtain ⟨hk, rfl⟩ := List.getElem?_eq_some_iff.mp hpart
    rw [List.drop_eq_getElem_cons hk, Value.occurrencesIn] at hq
    rcases List.mem_append.mp hq with hq | hq
    · exact List.mem_append_left _ (List.mem_append_left _ hq)
    · exact List.mem_append_right _ (List.mem_append_left _ (List.mem_append_left _
        (List.mem_append_right _ hq)))

end Pattern

end SinkReach
