/-
# Terms built through checks

A checked constructor looks at the sorts of its arguments before it makes a node, and the sort of a
whole tree is inferred by rules of its own.  The two sets of rules are the SAME: a constructor
succeeds exactly if the node that it would make is well-sorted, and gives that node
(`Value.mkConcat_eq_ok_iff` and its companions).

Negation and junctions check nothing, so what a call gives is well-sorted only if what it took is.
The invariant is therefore one of whole histories of calls, each on terms that the calls before it
gave, some of them refused: what has been built is well-sorted (`Call.wellSorted_of_run`).  Nothing
well-sorted is out of reach either, since every such term is built by some history
(`Value.obtainable`, `Guard.obtainable`).
-/
import SinkReach.Proofs.PathJoin

namespace SinkReach

/-! ## 1. The constructors one by one -/

namespace Value

theorem mkConcat_eq_ok_iff {parts : List Value} {v : Value} :
    mkConcat parts = .ok v ↔ (∃ s, (Value.concat parts).sort = .ok s) ∧ v = .concat parts := by
  constructor
  · intro h
    obtain ⟨_, hparts, hv⟩ := bind_eq_ok.mp h
    exact ⟨⟨.string, sort_concat_of_forall (strings_of_checkParts hparts)⟩,
      (Except.ok.inj hv).symm⟩
  · rintro ⟨⟨s, hs⟩, rfl⟩
    obtain ⟨hparts, -⟩ := sort_concat_eq_ok.mp hs
    exact mkConcat_of_forall (allStrings_eq_ok.mp hparts)

theorem mkArith_eq_ok_iff {op : ArithOp} {l r v : Value} :
    mkArith op l r = .ok v ↔ (∃ s, (Value.arith op l r).sort = .ok s) ∧ v = .arith op l r := by
  simp only [mkArith, Value.sort, bind_eq_ok]
  constructor
  · rintro ⟨ls, hl, rs, hr, s, hs, hv⟩
    exact ⟨⟨s, ls, hl, rs, hr, hs⟩, (Except.ok.inj hv).symm⟩
  · rintro ⟨⟨s, ls, hl, rs, hr, hs⟩, rfl⟩
    exact ⟨ls, hl, rs, hr, s, hs, rfl⟩

theorem mkIte_eq_ok_iff {g : Guard} {yes no v : Value} :
    mkIte g yes no = .ok v ↔ (∃ s, (Value.ite g yes no).sort = .ok s) ∧ v = .ite g yes no := by
  constructor
  · intro h
    obtain ⟨_, hg, h⟩ := bind_eq_ok.mp h
    obtain ⟨ts, hyes, h⟩ := bind_eq_ok.mp h
    obtain ⟨es, hno, h⟩ := bind_eq_ok.mp h
    obtain ⟨s, hs, hv⟩ := bind_eq_ok.mp h
    refine ⟨⟨s, ?_⟩, (Except.ok.inj hv).symm⟩
    exact bind_eq_ok.mpr ⟨(), hg, bind_eq_ok.mpr ⟨ts, hyes, bind_eq_ok.mpr ⟨es, hno, hs⟩⟩⟩
  · rintro ⟨⟨s, hs⟩, rfl⟩
    obtain ⟨hg, hyes, hno⟩ := sort_ite_eq_ok.mp hs
    exact mkIte_of_sorts hg hyes hno

end Value

namespace Guard

/-- A guard that is made first and checked then. -/
theorem checked_eq_ok_iff {made g : Guard} :
    (made.check >>= fun _ => Except.ok made) = .ok g ↔ made.check = .ok () ∧ g = made := by
  constructor
  · intro h
    obtain ⟨_, hcheck, hg⟩ := bind_eq_ok.mp h
    exact ⟨hcheck, (Except.ok.inj hg).symm⟩
  · rintro ⟨hcheck, rfl⟩
    exact bind_eq_ok.mpr ⟨(), hcheck, rfl⟩

theorem mkCompare_eq_ok_iff {op : CompareOp} {l r : Value} {g : Guard} :
    mkCompare op l r = .ok g ↔ (Guard.compare op l r).check = .ok () ∧ g = .compare op l r :=
  checked_eq_ok_iff

theorem mkAffix_eq_ok_iff {side : Side} {part text : Value} {g : Guard} :
    mkAffix side part text = .ok g
      ↔ (Guard.affix side part text).check = .ok () ∧ g = .affix side part text :=
  checked_eq_ok_iff

end Guard

/-! ## 2. Histories of calls -/

/-- A tree of either family. -/
inductive Term where
  | value (v : Value)
  | guard (g : Guard)
deriving DecidableEq

/-- The tree passes the check of its family. -/
def Term.WellSorted : Term → Prop
  | .value v => ∃ s, v.sort = .ok s
  | .guard g => g.check = .ok ()

/-- A constructor with the arguments it is called with. -/
inductive Call where
  | lit (c : Constant)
  | var (name : String) (s : ValueSort)
  | concat (parts : List Value)
  | arith (op : ArithOp) (left right : Value)
  | ite (cond : Guard) (yes no : Value)
  | pathJoin (base component : Value)
  | const (b : Bool)
  | compare (op : CompareOp) (left right : Value)
  | not (g : Guard)
  | junction (kind : Junction) (parts : List Guard)
  | affix (side : Side) (part text : Value)

namespace Call

/-- The terms that a call takes. -/
def arguments : Call → List Term
  | .lit _ | .var _ _ | .const _ => []
  | .concat parts => parts.map .value
  | .arith _ l r | .pathJoin l r | .compare _ l r | .affix _ l r => [.value l, .value r]
  | .ite c t e => [.guard c, .value t, .value e]
  | .not g => [.guard g]
  | .junction _ parts => parts.map .guard

/-- What a call gives, or the fault for which it is refused. -/
def answer : Call → Except SortFault Term
  | .lit c => .ok (.value (.lit c))
  | .var name s => .ok (.value (.var name s))
  | .concat parts => return .value (← Value.mkConcat parts)
  | .arith op l r => return .value (← Value.mkArith op l r)
  | .ite c t e => return .value (← Value.mkIte c t e)
  | .pathJoin base component => return .value (← Value.pathJoin base component)
  | .const b => .ok (.guard (.const b))
  | .compare op l r => return .guard (← Guard.mkCompare op l r)
  | .not g => .ok (.guard (.not g))
  | .junction kind parts => .ok (.guard (.junction kind parts))
  | .affix side part text => return .guard (← Guard.mkAffix side part text)

/-- The terms that are there after a call: one more, or, if it is refused, the same.  A call that
takes a term which is not there cannot be made. -/
def perform (built : List Term) (call : Call) : Option (List Term) :=
  if ∀ t ∈ call.arguments, t ∈ built then
    match call.answer with
    | .ok t => some (t :: built)
    | .error _ => some built
  else none

/-- The terms that are there after calls one after the other. -/
def run (built : List Term) (calls : List Call) : Option (List Term) := calls.foldlM perform built

variable {call : Call} {calls more : List Call} {built mid final : List Term} {t : Term}

/-- What a call can do. -/
theorem perform_eq_some :
    perform built call = some final ↔ (∀ t ∈ call.arguments, t ∈ built) ∧
      ((∃ t, call.answer = .ok t ∧ final = t :: built)
        ∨ ∃ e, call.answer = .error e ∧ final = built) := by
  unfold perform
  split
  · next hargs =>
    rw [and_iff_right hargs]
    cases call.answer with
    | ok t => simp [eq_comm]
    | error e => simp [eq_comm]
  · next hargs => simp [hargs]

theorem run_cons : run built (call :: calls) = perform built call >>= fun mid => run mid calls :=
  List.foldlM_cons

theorem run_append :
    run built (calls ++ more) = run built calls >>= fun mid => run mid more :=
  List.foldlM_append

/-! ## 3. What a history builds is well-sorted -/

/-- **What a call gives is well-sorted**, if what it takes is.  The constructors that check need no
such condition; it is for negations and junctions. -/
theorem wellSorted_of_answer (hargs : ∀ t ∈ call.arguments, t.WellSorted)
    (h : call.answer = .ok t) : t.WellSorted := by
  cases call with
  | lit c =>
    obtain rfl := Except.ok.inj h
    exact ⟨c.sort, rfl⟩
  | var name s =>
    obtain rfl := Except.ok.inj h
    exact ⟨s, rfl⟩
  | concat parts =>
    obtain ⟨v, hv, ⟨⟩⟩ := bind_eq_ok.mp h
    obtain ⟨hsort, rfl⟩ := Value.mkConcat_eq_ok_iff.mp hv
    exact hsort
  | arith op l r =>
    obtain ⟨v, hv, ⟨⟩⟩ := bind_eq_ok.mp h
    obtain ⟨hsort, rfl⟩ := Value.mkArith_eq_ok_iff.mp hv
    exact hsort
  | ite c yes no =>
    obtain ⟨v, hv, ⟨⟩⟩ := bind_eq_ok.mp h
    obtain ⟨hsort, rfl⟩ := Value.mkIte_eq_ok_iff.mp hv
    exact hsort
  | pathJoin base component =>
    obtain ⟨v, hv, ⟨⟩⟩ := bind_eq_ok.mp h
    obtain ⟨hbase, hcomponent, rfl⟩ := Value.pathJoin_eq_ok_iff.mp hv
    exact ⟨.string, Value.sort_joined hbase hcomponent⟩
  | const b =>
    obtain rfl := Except.ok.inj h
    rfl
  | compare op l r =>
    obtain ⟨g, hg, ⟨⟩⟩ := bind_eq_ok.mp h
    obtain ⟨hcheck, rfl⟩ := Guard.mkCompare_eq_ok_iff.mp hg
    exact hcheck
  | not g =>
    obtain rfl := Except.ok.inj h
    exact hargs (.guard g) (List.mem_singleton_self _)
  | junction kind parts =>
    obtain rfl := Except.ok.inj h
    refine Guard.checkAll_eq_ok.mpr ?_
    intro g hg
    exact hargs (.guard g) (List.mem_map_of_mem hg)
  | affix side part text =>
    obtain ⟨g, hg, ⟨⟩⟩ := bind_eq_ok.mp h
    obtain ⟨hcheck, rfl⟩ := Guard.mkAffix_eq_ok_iff.mp hg
    exact hcheck

/-- One call leaves only well-sorted terms, whether it is refused or not. -/
theorem wellSorted_of_perform (h : perform built call = some final)
    (hbuilt : ∀ t ∈ built, t.WellSorted) : ∀ t ∈ final, t.WellSorted := by
  obtain ⟨hargs, ⟨t, ht, rfl⟩ | ⟨e, -, rfl⟩⟩ := perform_eq_some.mp h
  · have hgiven : t.WellSorted :=
      wellSorted_of_answer (fun a ha => hbuilt a (hargs a ha)) ht
    exact List.forall_mem_cons.mpr ⟨hgiven, hbuilt⟩
  · exact hbuilt

/-- **A history of calls leaves only well-sorted terms.** -/
theorem wellSorted_of_run (h : run built calls = some final) (hbuilt : ∀ t ∈ built, t.WellSorted) :
    ∀ t ∈ final, t.WellSorted := by
  induction calls generalizing built with
  | nil =>
    obtain rfl := Option.some.inj h
    exact hbuilt
  | cons call calls ih =>
    rw [run_cons] at h
    obtain ⟨mid, hmid, hrest⟩ := Option.bind_eq_some_iff.mp h
    exact ih hrest (wellSorted_of_perform hmid hbuilt)

/-! ## 4. Every well-sorted term is built -/

/-- Calls take nothing away. -/
theorem subset_of_run (h : run built calls = some final) : built ⊆ final := by
  induction calls generalizing built with
  | nil =>
    obtain rfl := Option.some.inj h
    exact List.Subset.refl _
  | cons call calls ih =>
    rw [run_cons] at h
    obtain ⟨mid, hmid, hrest⟩ := Option.bind_eq_some_iff.mp h
    obtain ⟨-, ⟨t, -, rfl⟩ | ⟨e, -, rfl⟩⟩ := perform_eq_some.mp hmid
    · exact List.Subset.trans (List.subset_cons_self t built) (ih hrest)
    · exact ih hrest

/-- Whatever is there, a history of calls gets the terms as well. -/
def Obtainable (terms : List Term) : Prop :=
  ∀ built, ∃ calls final, run built calls = some final ∧ terms ⊆ final

theorem Obtainable.nil : Obtainable [] := fun built => ⟨[], built, rfl, List.nil_subset _⟩

theorem Obtainable.append {terms others : List Term} (h : Obtainable terms)
    (h' : Obtainable others) : Obtainable (terms ++ others) := by
  intro built
  obtain ⟨calls, mid, hcalls, hterms⟩ := h built
  obtain ⟨more, final, hmore, hothers⟩ := h' mid
  have hmid : mid ⊆ final := subset_of_run hmore
  refine ⟨calls ++ more, final, ?_, List.append_subset.mpr ⟨List.Subset.trans hterms hmid, hothers⟩⟩
  rw [run_append, hcalls]
  exact hmore

/-- One call more gets what it gives, once its arguments are there. -/
theorem Obtainable.answer (call : Call) (hargs : Obtainable call.arguments)
    (h : call.answer = .ok t) : Obtainable [t] := by
  intro built
  obtain ⟨calls, mid, hcalls, hmid⟩ := hargs built
  have hlast : perform mid call = some (t :: mid) :=
    perform_eq_some.mpr ⟨fun a ha => hmid ha, .inl ⟨t, h, rfl⟩⟩
  refine ⟨calls ++ [call], t :: mid, ?_, by simp⟩
  rw [run_append, hcalls, Option.bind_eq_bind, Option.bind_some, run_cons, hlast]
  rfl

end Call

mutual

/-- **Every well-sorted value is built by some history.** -/
theorem Value.obtainable : ∀ {v : Value} {s : ValueSort}, v.sort = .ok s →
    Call.Obtainable [.value v]
  | .lit c, _, _ => Call.Obtainable.answer (.lit c) .nil rfl
  | .var name s, _, _ => Call.Obtainable.answer (.var name s) .nil rfl
  | .concat parts, s, h => by
    obtain ⟨hparts, -⟩ := Value.sort_concat_eq_ok.mp h
    have hmade := Value.mkConcat_eq_ok_iff.mpr ⟨⟨s, h⟩, rfl⟩
    exact Call.Obtainable.answer (.concat parts) (Value.obtainable_all hparts)
      (bind_eq_ok.mpr ⟨_, hmade, rfl⟩)
  | .arith op l r, s, h => by
    obtain ⟨hl, hr, -⟩ := Value.sort_arith_eq_ok.mp h
    have hmade := Value.mkArith_eq_ok_iff.mpr ⟨⟨s, h⟩, rfl⟩
    exact Call.Obtainable.answer (.arith op l r)
      ((Value.obtainable hl).append (Value.obtainable hr)) (bind_eq_ok.mpr ⟨_, hmade, rfl⟩)
  | .ite c t e, s, h => by
    obtain ⟨hc, ht, he⟩ := Value.sort_ite_eq_ok.mp h
    have hmade := Value.mkIte_eq_ok_iff.mpr ⟨⟨s, h⟩, rfl⟩
    exact Call.Obtainable.answer (.ite c t e)
      ((Guard.obtainable hc).append ((Value.obtainable ht).append (Value.obtainable he)))
      (bind_eq_ok.mpr ⟨_, hmade, rfl⟩)

theorem Value.obtainable_all : ∀ {vs : List Value}, Value.allStrings vs = .ok () →
    Call.Obtainable (vs.map .value)
  | [], _ => .nil
  | v :: vs, h => by
    obtain ⟨hv, hvs⟩ := Value.allStrings_cons_eq_ok.mp h
    exact (Value.obtainable hv).append (Value.obtainable_all hvs)

/-- **Every well-sorted guard is built by some history.** -/
theorem Guard.obtainable : ∀ {g : Guard}, g.check = .ok () → Call.Obtainable [.guard g]
  | .const b, _ => Call.Obtainable.answer (.const b) .nil rfl
  | .compare op l r, h => by
    obtain ⟨s, hl, hr, -⟩ := Guard.check_compare_eq_ok.mp h
    have hmade := Guard.mkCompare_eq_ok_iff.mpr ⟨h, rfl⟩
    exact Call.Obtainable.answer (.compare op l r)
      ((Value.obtainable hl).append (Value.obtainable hr)) (bind_eq_ok.mpr ⟨_, hmade, rfl⟩)
  | .not g, h => by
    have hg : g.check = .ok () := h
    exact Call.Obtainable.answer (.not g) (Guard.obtainable hg) rfl
  | .junction kind parts, h =>
    Call.Obtainable.answer (.junction kind parts) (Guard.obtainable_all h) rfl
  | .affix side part text, h => by
    obtain ⟨hpart, htext⟩ := Guard.check_affix_eq_ok.mp h
    have hmade := Guard.mkAffix_eq_ok_iff.mpr ⟨h, rfl⟩
    exact Call.Obtainable.answer (.affix side part text)
      ((Value.obtainable hpart).append (Value.obtainable htext)) (bind_eq_ok.mpr ⟨_, hmade, rfl⟩)

theorem Guard.obtainable_all : ∀ {gs : List Guard}, Guard.checkAll gs = .ok () →
    Call.Obtainable (gs.map .guard)
  | [], _ => .nil
  | g :: gs, h => by
    obtain ⟨hg, hgs⟩ := Guard.checkAll_cons_eq_ok.mp h
    exact (Guard.obtainable hg).append (Guard.obtainable_all hgs)

end

theorem Term.WellSorted.obtainable {t : Term} (h : t.WellSorted) : Call.Obtainable [t] := by
  cases t with
  | value v =>
    obtain ⟨s, hs⟩ := h
    exact Value.obtainable hs
  | guard g => exact Guard.obtainable h

/-! ## 5. The constructors and the checks -/

/-- **The checked constructors refuse exactly the ill-sorted terms.**

* Whatever it is called with, a constructor that checks succeeds exactly if the node passes the
  check of its family, and then gives that node.
* So after every history of calls that starts from nothing, with refused calls in between, every
  term that is there is well-sorted; and every well-sorted term is there after some history. -/
theorem constructors_refuse_the_ill_sorted :
    (∀ parts v, Value.mkConcat parts = .ok v
      ↔ (∃ s, (Value.concat parts).sort = .ok s) ∧ v = .concat parts) ∧
    (∀ op l r v, Value.mkArith op l r = .ok v
      ↔ (∃ s, (Value.arith op l r).sort = .ok s) ∧ v = .arith op l r) ∧
    (∀ g yes no v, Value.mkIte g yes no = .ok v
      ↔ (∃ s, (Value.ite g yes no).sort = .ok s) ∧ v = .ite g yes no) ∧
    (∀ op l r g, Guard.mkCompare op l r = .ok g
      ↔ (Guard.compare op l r).check = .ok () ∧ g = .compare op l r) ∧
    (∀ side part text g, Guard.mkAffix side part text = .ok g
      ↔ (Guard.affix side part text).check = .ok () ∧ g = .affix side part text) ∧
    (∀ calls built, Call.run [] calls = some built → ∀ t ∈ built, t.WellSorted) ∧
    ∀ t : Term, t.WellSorted → ∃ calls built, Call.run [] calls = some built ∧ t ∈ built := by
  refine ⟨fun _ _ => Value.mkConcat_eq_ok_iff, fun _ _ _ _ => Value.mkArith_eq_ok_iff,
    fun _ _ _ _ => Value.mkIte_eq_ok_iff, fun _ _ _ _ => Guard.mkCompare_eq_ok_iff,
    fun _ _ _ _ => Guard.mkAffix_eq_ok_iff, ?_, ?_⟩
  · intro calls built hrun
    exact Call.wellSorted_of_run hrun (List.forall_mem_nil _)
  · intro t ht
    obtain ⟨calls, built, hrun, hsub⟩ := ht.obtainable []
    exact ⟨calls, built, hrun, hsub (List.mem_singleton_self t)⟩

/-- Calls that join a text with itself and negate a comparison, after a concatenation with a number
and an order comparison of texts, which are refused. -/
def mixedCalls : List Call :=
  let text := Value.str "srv"
  let number := Value.intVar "n"
  let test := Guard.compare .lt number number
  [.lit (.str "srv"), .var "n" .int, .concat [text, number], .compare .lt text text,
    .compare .lt number number, .pathJoin text text, .not test, .junction .any [.not test, test]]

theorem constructors_refuse_the_ill_sorted_mixedCalls :
    let test := Guard.compare .lt (.intVar "n") (.intVar "n")
    let joined := Value.joined (.str "srv") (.str "srv")
    let built : List Term := [.guard (.any [.not test, test]), .guard (.not test), .value joined,
      .guard test, .value (.intVar "n"), .value (.str "srv")]
    Call.run [] mixedCalls = some built ∧ (∀ t ∈ built, t.WellSorted) ∧
      ∃ calls built, Call.run [] calls = some built ∧
        .value (.arith .rem (.int 7) (.int 0)) ∈ built := by
  intro test joined built
  have hrun : Call.run [] mixedCalls = some built := by decide +kernel
  obtain ⟨-, -, -, -, -, hbuilt, hreached⟩ := constructors_refuse_the_ill_sorted
  exact ⟨hrun, hbuilt mixedCalls built hrun, hreached _ ⟨.int, rfl⟩⟩

end SinkReach
