/-
# Joining paths

`Value.pathJoin` puts the rules for joining two paths into a term.  Whether a separator is needed is
not asked directly there: a separator is put in front of the base, and if the result ENDS in one the
base is empty or has one of its own.

`joinPaths` has the rules as they are meant, on texts.

* `Value.pathJoin_eq_ok_iff`: which joins succeed, and with what;
* `Value.eval_joined`: the term has the text that the rules give, whatever is assigned;
* `joinPaths_assoc`: joining is associative.
-/
import Mathlib.Data.List.Basic
import SinkReach.Proofs.Pattern.Collisions

namespace SinkReach

variable {sem : IntSemantics} {env : Assignment}

/-! ## 1. Joining texts -/

/-- The path that a component leads to from a base: an absolute component is where it leads, an
empty side gives the other one, and otherwise the two stand one after the other, with a separator
between them unless the base ends in one. -/
def joinPaths (base component : String) : String :=
  if component.toList.head? = some '/' then component
  else if component = "" then base
  else if base = "" then component
  else if base.toList.getLast? = some '/' then base ++ component
  else base ++ "/" ++ component

theorem joinPaths_of_absolute {c : String} (h : c.toList.head? = some '/') (b : String) :
    joinPaths b c = c := if_pos h

theorem joinPaths_empty_right (b : String) : joinPaths b "" = b := by
  rw [joinPaths, if_neg (by simp), if_pos rfl]

theorem joinPaths_empty_left (c : String) : joinPaths "" c = c := by
  unfold joinPaths
  split
  · rfl
  · split
    · next h => exact h.symm
    · exact if_pos rfl

/-- Where the component is not absolute both sides stand in the result, and the separator is the
only question. -/
theorem joinPaths_of_not_absolute {c : String} (h : c.toList.head? ≠ some '/') (b : String) :
    joinPaths b c =
      b ++ ((if c = "" ∨ b = "" ∨ b.toList.getLast? = some '/' then "" else "/") ++ c) := by
  rw [joinPaths, if_neg h]
  by_cases hc : c = ""
  · simp [hc]
  by_cases hb : b = ""
  · simp [hb, hc]
  by_cases hend : b.toList.getLast? = some '/'
  · simp [hb, hc, hend]
  · simp [hb, hc, hend, String.append_assoc]

/-- What stands between a base and a relative component, if neither is empty. -/
def separatorAfter (base : String) : String := if base.toList.getLast? = some '/' then "" else "/"

theorem joinPaths_of_relative {b c : String} (hb : b ≠ "") (hc : c ≠ "")
    (hrelative : c.toList.head? ≠ some '/') :
    joinPaths b c = b ++ (separatorAfter b ++ c) := by
  simp only [joinPaths_of_not_absolute hrelative, separatorAfter, hb, hc, false_or]

theorem head?_append {s : String} (h : s ≠ "") (t : String) :
    (s ++ t).toList.head? = s.toList.head? := by
  rw [String.toList_append, List.head?_append_of_ne_nil _ (by simpa using h)]

theorem separatorAfter_append {t : String} (h : t ≠ "") (s : String) :
    separatorAfter (s ++ t) = separatorAfter t := by
  unfold separatorAfter
  rw [String.toList_append, List.getLast?_append_of_ne_nil _ (by simpa using h)]

theorem append_ne_empty {s : String} (h : s ≠ "") (t : String) : s ++ t ≠ "" :=
  fun happend => h (String.append_eq_empty_iff.mp happend).1

/-- **Joining is associative.**  An absolute component cuts off what is before it on both sides, an
empty one drops out, and of three others the middle one decides alone what stands behind it. -/
theorem joinPaths_assoc (a b c : String) :
    joinPaths (joinPaths a b) c = joinPaths a (joinPaths b c) := by
  by_cases hcabs : c.toList.head? = some '/'
  · rw [joinPaths_of_absolute hcabs, joinPaths_of_absolute hcabs, joinPaths_of_absolute hcabs]
  by_cases hc : c = ""
  · rw [hc, joinPaths_empty_right, joinPaths_empty_right]
  by_cases hb : b = ""
  · rw [hb, joinPaths_empty_right, joinPaths_empty_left]
  have hbc : joinPaths b c = b ++ (separatorAfter b ++ c) := joinPaths_of_relative hb hc hcabs
  by_cases hbabs : b.toList.head? = some '/'
  · have hjoined : (joinPaths b c).toList.head? = some '/' := by rw [hbc, head?_append hb, hbabs]
    rw [joinPaths_of_absolute hbabs, joinPaths_of_absolute hjoined]
  by_cases ha : a = ""
  · rw [ha, joinPaths_empty_left, joinPaths_empty_left]
  have hrelative : (b ++ (separatorAfter b ++ c)).toList.head? ≠ some '/' := by
    rwa [head?_append hb]
  have hseparator : separatorAfter (a ++ (separatorAfter a ++ b)) = separatorAfter b := by
    rw [← String.append_assoc, separatorAfter_append hb]
  calc joinPaths (joinPaths a b) c
      = joinPaths (a ++ (separatorAfter a ++ b)) c := by rw [joinPaths_of_relative ha hb hbabs]
    _ = a ++ (separatorAfter a ++ b) ++ (separatorAfter b ++ c) := by
      rw [joinPaths_of_relative (append_ne_empty ha _) hc hcabs, hseparator]
    _ = a ++ (separatorAfter a ++ (b ++ (separatorAfter b ++ c))) := by
      simp only [String.append_assoc]
    _ = joinPaths a (b ++ (separatorAfter b ++ c)) :=
      (joinPaths_of_relative ha (append_ne_empty hb _) hrelative).symm
    _ = joinPaths a (joinPaths b c) := by rw [hbc]

/-! ## 2. The tests for separators -/

theorem Side.tests_start_separator (s : String) :
    Side.start.tests "/" s = decide (s.toList.head? = some '/') := by
  have hlist : Side.start.tests "/" s = ['/'].isPrefixOf s.toList := rfl
  rw [hlist]
  cases s.toList with
  | nil => rfl
  | cons c rest => simp [List.isPrefixOf, Bool.beq_eq_decide_eq, eq_comm]

/-- With a separator in front, a text ends in one if it is empty or has one at the end itself. -/
theorem Side.tests_finish_separator (s : String) :
    Side.finish.tests "/" ("/" ++ s) = true ↔ s = "" ∨ s.toList.getLast? = some '/' := by
  have hlist : Side.finish.tests "/" ("/" ++ s) = ['/'].isSuffixOf ('/' :: s.toList) := by
    rw [Side.tests, String.toList_append]
    rfl
  rw [hlist, List.isSuffixOf_iff_suffix, List.suffix_cons_iff, ← String.toList_eq_nil_iff]
  refine or_congr ?_ ?_
  · rw [List.cons.injEq]
    exact ⟨fun h => h.2.symm, fun h => ⟨rfl, h.symm⟩⟩
  · rw [List.getLast?_eq_some_iff]
    exact exists_congr fun _ => eq_comm

theorem Guard.eval_any_pair {g h : Guard} {x y : Bool} (hg : g.eval sem env = some x)
    (hh : h.eval sem env = some y) : (Guard.any [g, h]).eval sem env = some (x || y) := by
  rw [Guard.eval, Guard.evalJunction, Guard.evalJunction, Guard.evalJunction, hg, hh]
  cases x <;> cases y <;> rfl

/-! ## 3. The term of a join -/

namespace Value

/-- The term of a join, without any check. -/
def joined (base component : Value) : Value :=
  .ite (.affix .start (.str "/") component) component
    (.concat [base,
      .ite (.any [.compare .eq component (.str ""),
          .affix .finish (.str "/") (.concat [.str "/", base])])
        (.str "") (.str "/"),
      component])

theorem strings_of_checkParts {parts : List Value} {index : Nat}
    (h : checkParts index parts = .ok ()) : ∀ part ∈ parts, part.sort = .ok .string := by
  induction parts generalizing index with
  | nil => simp
  | cons part rest ih =>
    obtain ⟨s, hs, h⟩ := bind_eq_ok.mp h
    split at h
    · next hstr => exact List.forall_mem_cons.mpr ⟨hstr ▸ hs, ih h⟩
    · exact absurd h (by simp)

theorem mkIte_of_sorts {g : Guard} {yes no : Value} {s : ValueSort} (hg : g.check = .ok ())
    (hyes : yes.sort = .ok s) (hno : no.sort = .ok s) : mkIte g yes no = .ok (.ite g yes no) := by
  refine bind_eq_ok.mpr ⟨(), hg, bind_eq_ok.mpr ⟨s, hyes, bind_eq_ok.mpr ⟨s, hno, ?_⟩⟩⟩
  exact bind_eq_ok.mpr ⟨s, if_pos rfl, rfl⟩

theorem mkAffix_of_strings {side : Side} {part text : Value} (hpart : part.sort = .ok .string)
    (htext : text.sort = .ok .string) :
    Guard.mkAffix side part text = .ok (.affix side part text) :=
  bind_eq_ok.mpr ⟨(), Guard.check_affix_eq_ok.mpr ⟨hpart, htext⟩, rfl⟩

variable {base component : Value}

/-- The two tests that decide about the separator are well-sorted. -/
theorem check_separatorGuard (hbase : base.sort = .ok .string)
    (hcomponent : component.sort = .ok .string) :
    (Guard.any [.compare .eq component (.str ""),
      .affix .finish (.str "/") (.concat [.str "/", base])]).check = .ok () := by
  have hanchored : (Value.concat [.str "/", base]).sort = .ok .string :=
    sort_concat_of_forall (by simpa using ⟨rfl, hbase⟩)
  refine Guard.checkAll_eq_ok.mpr (List.forall_mem_cons.mpr
    ⟨Guard.check_eq_of_strings hcomponent rfl, List.forall_mem_singleton.mpr ?_⟩)
  exact Guard.check_affix_eq_ok.mpr ⟨rfl, hanchored⟩

theorem sort_joined (hbase : base.sort = .ok .string) (hcomponent : component.sort = .ok .string) :
    (joined base component).sort = .ok .string := by
  have hseparator := sort_ite_eq_ok.mpr
    ⟨check_separatorGuard hbase hcomponent, (rfl : (str "").sort = _), (rfl : (str "/").sort = _)⟩
  refine sort_ite_eq_ok.mpr
    ⟨Guard.check_affix_eq_ok.mpr ⟨rfl, hcomponent⟩, hcomponent, sort_concat_of_forall ?_⟩
  exact List.forall_mem_cons.mpr ⟨hbase, List.forall_mem_cons.mpr
    ⟨hseparator, List.forall_mem_singleton.mpr hcomponent⟩⟩

/-- The join of two strings is built. -/
theorem pathJoin_of_strings (hbase : base.sort = .ok .string)
    (hcomponent : component.sort = .ok .string) :
    pathJoin base component = .ok (joined base component) := by
  obtain ⟨habsolute, -, hrelative⟩ := sort_ite_eq_ok.mp (sort_joined hbase hcomponent)
  obtain ⟨hparts, -⟩ := sort_concat_eq_ok.mp hrelative
  have hanchored : ∀ part ∈ [.str "/", base], part.sort = .ok .string :=
    List.forall_mem_cons.mpr ⟨rfl, List.forall_mem_singleton.mpr hbase⟩
  refine bind_eq_ok.mpr ⟨_, Guard.mkCompare_of_strings hcomponent rfl, ?_⟩
  refine bind_eq_ok.mpr ⟨_, mkConcat_of_forall hanchored, ?_⟩
  refine bind_eq_ok.mpr ⟨_, mkAffix_of_strings rfl (sort_concat_of_forall hanchored), ?_⟩
  refine bind_eq_ok.mpr ⟨_, mkIte_of_sorts (check_separatorGuard hbase hcomponent) rfl rfl, ?_⟩
  refine bind_eq_ok.mpr ⟨_, mkConcat_of_forall (allStrings_eq_ok.mp hparts), ?_⟩
  refine bind_eq_ok.mpr ⟨_, mkAffix_of_strings rfl hcomponent, ?_⟩
  exact mkIte_of_sorts habsolute hcomponent hrelative

/-- **Which joins succeed**: those of two strings. -/
theorem pathJoin_eq_ok_iff {v : Value} :
    pathJoin base component = .ok v ↔
      base.sort = .ok .string ∧ component.sort = .ok .string ∧ v = joined base component := by
  constructor
  · intro h
    -- The first two steps already look at the sorts of both.
    obtain ⟨_, hcompare, hrest⟩ := bind_eq_ok.mp h
    obtain ⟨_, hconcat, -⟩ := bind_eq_ok.mp hrest
    obtain ⟨_, hcheck, -⟩ := bind_eq_ok.mp hcompare
    obtain ⟨_, hparts, -⟩ := bind_eq_ok.mp hconcat
    obtain ⟨s, hcomponent, hs, -⟩ := Guard.check_compare_eq_ok.mp hcheck
    obtain rfl : .string = s := Except.ok.inj hs
    have hbase : base.sort = .ok .string := strings_of_checkParts hparts base (by simp)
    rw [pathJoin_of_strings hbase hcomponent] at h
    exact ⟨hbase, hcomponent, (Except.ok.inj h).symm⟩
  · rintro ⟨hbase, hcomponent, rfl⟩
    exact pathJoin_of_strings hbase hcomponent

/-! ## 4. What a join evaluates to -/

variable {b c : String}

/-- No separator is put in where one of the two is empty or the base ends in one. -/
theorem eval_separatorGuard (hbase : base.eval sem env = some (.str b))
    (hcomponent : component.eval sem env = some (.str c)) :
    (Guard.any [.compare .eq component (.str ""),
      .affix .finish (.str "/") (.concat [.str "/", base])]).eval sem env
        = some (decide (c = "" ∨ b = "" ∨ b.toList.getLast? = some '/')) := by
  have hslash : (Value.str "/").eval sem env = some (.str "/") := rfl
  have hanchored : (Value.concat [.str "/", base]).eval sem env = some (.str ("/" ++ b)) :=
    eval_concat_eq_some.mpr ⟨_, evalText_pair.mpr ⟨"/", hslash, b, hbase, rfl⟩, rfl⟩
  have haffix : (Guard.affix .finish (.str "/") (.concat [.str "/", base])).eval sem env
      = some (decide (b = "" ∨ b.toList.getLast? = some '/')) := by
    refine Guard.eval_affix_eq_some.mpr ⟨"/", hslash, "/" ++ b, hanchored, ?_⟩
    exact Bool.eq_iff_iff.mpr ((Side.tests_finish_separator b).trans decide_eq_true_iff.symm)
  have hempty := Guard.eval_eq_of_str hcomponent (rfl : (str "").eval sem env = some (.str ""))
  rw [Guard.eval_any_pair hempty haffix, ← Bool.decide_or]

/-- **The term of a join has the text that the rules give.** -/
theorem eval_joined (hbase : base.eval sem env = some (.str b))
    (hcomponent : component.eval sem env = some (.str c)) :
    (joined base component).eval sem env = some (.str (joinPaths b c)) := by
  have habsolute : (Guard.affix .start (.str "/") component).eval sem env
      = some (decide (c.toList.head? = some '/')) :=
    Guard.eval_affix_eq_some.mpr ⟨"/", rfl, c, hcomponent, Side.tests_start_separator c⟩
  refine eval_ite_eq_some.mpr ⟨_, habsolute, ?_⟩
  by_cases h : c.toList.head? = some '/'
  · rw [if_pos (decide_eq_true h), joinPaths_of_absolute h, hcomponent]
  · rw [if_neg (by simpa using h), joinPaths_of_not_absolute h]
    refine eval_concat_eq_some.mpr ⟨_, evalText_cons_eq_some.mpr ⟨b, hbase, _,
      evalText_pair.mpr ⟨_, ?_, c, hcomponent, rfl⟩, rfl⟩, rfl⟩
    refine eval_ite_eq_some.mpr ⟨_, eval_separatorGuard hbase hcomponent, ?_⟩
    simp only [decide_eq_true_eq]
    split
    · rfl
    · rfl

/-- **Joins follow the rules for joining paths.**

* A join succeeds exactly if both sides are strings, and is a string then.
* Under every assignment that gives the sides texts it has the text that the rules give.
* Of three strings it does not matter which two are joined first: the texts are the same.
* The empty text may be joined on either side without any effect on the text. -/
theorem joins_follow_rules (x y z : Value) :
    ((∃ v, pathJoin x y = .ok v) ↔ x.sort = .ok .string ∧ y.sort = .ok .string) ∧
    (∀ v, pathJoin x y = .ok v → v.sort = .ok .string ∧
      ∀ sem env a b, x.eval sem env = some (.str a) → y.eval sem env = some (.str b) →
        v.eval sem env = some (.str (joinPaths a b))) ∧
    (x.sort = .ok .string → y.sort = .ok .string → z.sort = .ok .string →
      ∃ xy yz left right, pathJoin x y = .ok xy ∧ pathJoin xy z = .ok left ∧
        pathJoin y z = .ok yz ∧ pathJoin x yz = .ok right ∧
        ∀ sem env a b c, x.eval sem env = some (.str a) → y.eval sem env = some (.str b) →
          z.eval sem env = some (.str c) →
            left.eval sem env = some (.str (joinPaths (joinPaths a b) c)) ∧
              right.eval sem env = left.eval sem env) ∧
    (x.sort = .ok .string → ∃ left right, pathJoin (.str "") x = .ok left ∧
      pathJoin x (.str "") = .ok right ∧ ∀ sem env a, x.eval sem env = some (.str a) →
        left.eval sem env = some (.str a) ∧ right.eval sem env = some (.str a)) := by
  refine ⟨⟨?_, ?_⟩, ?_, ?_, ?_⟩
  · rintro ⟨v, hv⟩
    obtain ⟨hx, hy, -⟩ := pathJoin_eq_ok_iff.mp hv
    exact ⟨hx, hy⟩
  · rintro ⟨hx, hy⟩
    exact ⟨_, pathJoin_of_strings hx hy⟩
  · intro v hv
    obtain ⟨hx, hy, rfl⟩ := pathJoin_eq_ok_iff.mp hv
    exact ⟨sort_joined hx hy, fun sem env a b ha hb => eval_joined ha hb⟩
  · intro hx hy hz
    refine ⟨_, _, _, _, pathJoin_of_strings hx hy, pathJoin_of_strings (sort_joined hx hy) hz,
      pathJoin_of_strings hy hz, pathJoin_of_strings hx (sort_joined hy hz), ?_⟩
    intro sem env a b c ha hb hc
    rw [eval_joined (eval_joined ha hb) hc, eval_joined ha (eval_joined hb hc), joinPaths_assoc]
    exact ⟨rfl, rfl⟩
  · intro hx
    have hempty : (str "").sort = .ok .string := rfl
    refine ⟨_, _, pathJoin_of_strings hempty hx, pathJoin_of_strings hx hempty, ?_⟩
    intro sem env a ha
    have htext : (str "").eval sem env = some (.str "") := rfl
    rw [eval_joined htext ha, eval_joined ha htext, joinPaths_empty_left, joinPaths_empty_right]
    exact ⟨rfl, rfl⟩

/-- A folder that ends in a separator, between a base and a name that are not known: the separator
is not doubled, an empty base leaves no trace, and an absolute name cuts off both. -/
theorem joins_follow_rules_folder :
    let x := stringVar "base"
    let y := str "data/"
    let z := stringVar "name"
    ∃ xy yz left right, pathJoin x y = .ok xy ∧ pathJoin xy z = .ok left ∧
      pathJoin y z = .ok yz ∧ pathJoin x yz = .ok right ∧
      ∀ p ∈ [("/srv", "log", "/srv/data/log"), ("", "log", "data/log"), ("/srv/", "", "/srv/data/"),
          ("srv", "/etc", "/etc")],
        let env : Assignment := .ofList [("base", .str p.1), ("name", .str p.2.1)]
        left.eval .unbounded env = some (.str p.2.2) ∧
          right.eval .unbounded env = some (.str p.2.2) := by
  intro x y z
  obtain ⟨-, -, hassoc, -⟩ := joins_follow_rules x y z
  obtain ⟨xy, yz, left, right, hxy, hleft, hyz, hright, heval⟩ := hassoc rfl rfl rfl
  refine ⟨xy, yz, left, right, hxy, hleft, hyz, hright, ?_⟩
  intro p hp env
  have hjoined : joinPaths (joinPaths p.1 "data/") p.2.1 = p.2.2 := by
    revert p
    decide
  have hbase : x.eval .unbounded env = some (.str p.1) :=
    eval_stringVar.mpr (by simp [env, Bindings.ofList])
  have hname : z.eval .unbounded env = some (.str p.2.1) :=
    eval_stringVar.mpr (by simp [env, Bindings.ofList])
  obtain ⟨htext, hsame⟩ := heval .unbounded env p.1 "data/" p.2.1 hbase rfl hname
  rw [hsame, htext, hjoined]
  exact ⟨rfl, rfl⟩

end Value

end SinkReach
