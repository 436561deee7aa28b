/-
# Well-sorted terms

What the sort checks establish, node by node, and what they buy at evaluation:

* `Value.sort_of_eval`: a well-sorted value has a constant of its sort, if it has one;
* `Value.exists_eval`, `Guard.exists_eval`: a well-sorted term whose variables are all bound is
  decided, unless one of its arithmetic nodes has operands but no result;
* `ArithOp.apply_eq_none_iff`: what it takes for an operation on words to have no result.

The second is stated through the list of arithmetic nodes of a term, so that "no division occurs"
and "every operation stays in the domain" are both conditions on that list.  Together with the
third it names the node at fault in a well-sorted term that is undecided all the same
(`well_sorted_terms_do_not_go_wrong`).
-/
import SinkReach.Proofs.Evaluation

namespace SinkReach

variable {sem : IntSemantics} {env : Assignment}

/-! ## 1. Checked nodes -/

/-- A check in two steps succeeds when both do. -/
theorem bind_eq_ok {ε α β : Type} {x : Except ε α} {f : α → Except ε β} {b : β} :
    (x >>= f) = .ok b ↔ ∃ a, x = .ok a ∧ f a = .ok b := by
  cases x with
  | error e => simp [bind, Except.bind]
  | ok a => simp [bind, Except.bind]

theorem Value.sort_concat_eq_ok {parts : List Value} {s : ValueSort} :
    (Value.concat parts).sort = .ok s ↔ Value.allStrings parts = .ok () ∧ s = .string := by
  rw [Value.sort, bind_eq_ok]
  constructor
  · rintro ⟨_, h, hs⟩
    exact ⟨h, (Except.ok.inj hs).symm⟩
  · rintro ⟨h, rfl⟩
    exact ⟨(), h, rfl⟩

theorem Value.allStrings_cons_eq_ok {v : Value} {vs : List Value} :
    Value.allStrings (v :: vs) = .ok () ↔ v.sort = .ok .string ∧ Value.allStrings vs = .ok () := by
  rw [Value.allStrings, bind_eq_ok]
  constructor
  · rintro ⟨s, hs, h⟩
    split at h
    · next heq => exact ⟨heq ▸ hs, h⟩
    · exact absurd h (by simp)
  · rintro ⟨hs, h⟩
    exact ⟨.string, hs, by simpa using h⟩

theorem Value.allStrings_eq_ok {vs : List Value} :
    Value.allStrings vs = .ok () ↔ ∀ v ∈ vs, v.sort = .ok .string := by
  induction vs with
  | nil => simp [Value.allStrings]
  | cons v vs ih => rw [Value.allStrings_cons_eq_ok, ih, List.forall_mem_cons]

theorem Value.sort_arith_eq_ok {op : ArithOp} {l r : Value} {s : ValueSort} :
    (Value.arith op l r).sort = .ok s
      ↔ l.sort = .ok .int ∧ r.sort = .ok .int ∧ s = .int := by
  simp only [Value.sort, bind_eq_ok, ArithOp.resultSort]
  constructor
  · rintro ⟨ls, hl, rs, hr, h⟩
    split at h
    · next heq =>
      obtain ⟨rfl, rfl⟩ := heq
      exact ⟨hl, hr, (Except.ok.inj h).symm⟩
    · exact absurd h (by simp)
  · rintro ⟨hl, hr, rfl⟩
    exact ⟨.int, hl, .int, hr, by simp⟩

theorem Value.sort_ite_eq_ok {g : Guard} {t e : Value} {s : ValueSort} :
    (Value.ite g t e).sort = .ok s ↔ g.check = .ok () ∧ t.sort = .ok s ∧ e.sort = .ok s := by
  simp only [Value.sort, bind_eq_ok, choiceSort]
  constructor
  · rintro ⟨_, hg, ts, ht, es, he, h⟩
    split at h
    · next heq =>
      obtain rfl := Except.ok.inj h
      exact ⟨hg, ht, heq ▸ he⟩
    · exact absurd h (by simp)
  · rintro ⟨hg, ht, he⟩
    exact ⟨(), hg, s, ht, s, he, by simp⟩

theorem Guard.check_compare_eq_ok {op : CompareOp} {l r : Value} :
    (Guard.compare op l r).check = .ok ()
      ↔ ∃ s, l.sort = .ok s ∧ r.sort = .ok s ∧ (s = .string → op.isEquality = true) := by
  simp only [Guard.check, bind_eq_ok, CompareOp.admits]
  constructor
  · rintro ⟨ls, hl, rs, hr, h⟩
    split at h
    · exact absurd h (by simp)
    · next heq =>
      obtain rfl : ls = rs := by simpa using heq
      split at h
      · exact absurd h (by simp)
      · next hop => exact ⟨ls, hl, hr, by simpa using hop⟩
  · rintro ⟨s, hl, hr, hop⟩
    exact ⟨s, hl, s, hr, by simpa using hop⟩

theorem Guard.check_affix_eq_ok {side : Side} {part text : Value} :
    (Guard.affix side part text).check = .ok ()
      ↔ part.sort = .ok .string ∧ text.sort = .ok .string := by
  simp only [Guard.check, bind_eq_ok, affixAdmits]
  constructor
  · rintro ⟨ps, hp, ts, ht, h⟩
    split at h
    · next heq =>
      obtain ⟨rfl, rfl⟩ := heq
      exact ⟨hp, ht⟩
    · exact absurd h (by simp)
  · rintro ⟨hp, ht⟩
    exact ⟨.string, hp, .string, ht, by simp⟩

theorem Guard.checkAll_cons_eq_ok {g : Guard} {gs : List Guard} :
    Guard.checkAll (g :: gs) = .ok () ↔ g.check = .ok () ∧ Guard.checkAll gs = .ok () := by
  rw [Guard.checkAll, bind_eq_ok]
  constructor
  · rintro ⟨_, hg, hgs⟩
    exact ⟨hg, hgs⟩
  · rintro ⟨hg, hgs⟩
    exact ⟨(), hg, hgs⟩

theorem Guard.checkAll_eq_ok {gs : List Guard} :
    Guard.checkAll gs = .ok () ↔ ∀ g ∈ gs, g.check = .ok () := by
  induction gs with
  | nil => simp [Guard.checkAll]
  | cons g gs ih => rw [Guard.checkAll_cons_eq_ok, ih, List.forall_mem_cons]

/-! ## 2. The sort of a result -/

/-- What evaluation makes of a constant has the sort of the constant. -/
theorem Constant.sort_of_eval {k c : Constant} (h : k.eval sem = some c) : c.sort = k.sort := by
  cases k with
  | int n =>
    obtain ⟨m, _, rfl⟩ := Option.map_eq_some_iff.mp h
    rfl
  | _ =>
    obtain rfl := Option.some.inj h
    rfl

theorem Assignment.read_eq_some {name : String} {s : ValueSort} {c : Constant} :
    env.read name s = some c ↔ env.find? name = some c ∧ c.sort = s := by
  simp [Assignment.read, Option.filter_eq_some_iff]

/-- **A well-sorted value has a constant of its sort**, if it has one. -/
theorem Value.sort_of_eval : ∀ {v : Value} {s : ValueSort} {c : Constant},
    v.sort = .ok s → v.eval sem env = some c → c.sort = s
  | .lit k, s, c, hs, h => by
    obtain rfl := Except.ok.inj hs
    exact Constant.sort_of_eval h
  | .var name t, s, c, hs, h => by
    obtain rfl := Except.ok.inj hs
    exact (Assignment.read_eq_some.mp h).2
  | .concat parts, s, c, hs, h => by
    obtain ⟨-, rfl⟩ := Value.sort_concat_eq_ok.mp hs
    obtain ⟨a, -, rfl⟩ := Value.eval_concat_eq_some.mp h
    rfl
  | .arith op l r, s, c, hs, h => by
    obtain ⟨-, -, rfl⟩ := Value.sort_arith_eq_ok.mp hs
    obtain ⟨a, -, b, -, n, -, rfl⟩ := Value.eval_arith_eq_some.mp h
    rfl
  | .ite g t e, s, c, hs, h => by
    obtain ⟨-, ht, he⟩ := Value.sort_ite_eq_ok.mp hs
    obtain ⟨b, -, hc⟩ := Value.eval_ite_eq_some.mp h
    cases b
    · exact Value.sort_of_eval he hc
    · exact Value.sort_of_eval ht hc

theorem Constant.eq_str_of_sort {c : Constant} (h : c.sort = .string) : ∃ s, c = .str s := by
  cases c with
  | str s => exact ⟨s, rfl⟩
  | _ => exact absurd h (by simp [Constant.sort])

theorem Constant.eq_int_of_sort {c : Constant} (h : c.sort = .int) : ∃ n, c = .int n := by
  cases c with
  | int n => exact ⟨n, rfl⟩
  | _ => exact absurd h (by simp [Constant.sort])

/-- A string value has a text, if it has anything. -/
theorem Value.eval_eq_str {v : Value} {c : Constant} (hs : v.sort = .ok .string)
    (h : v.eval sem env = some c) : ∃ s, c = .str s :=
  Constant.eq_str_of_sort (Value.sort_of_eval hs h)

/-- Constants of one sort can be compared by every operator that the sort admits. -/
theorem CompareOp.exists_eval {op : CompareOp} {x y : Constant} (hsort : x.sort = y.sort)
    (hop : x.sort = .string → op.isEquality = true) : ∃ b, op.eval x y = some b := by
  cases x <;> cases y <;> simp_all [Constant.sort, CompareOp.eval]

/-! ## 3. The arithmetic nodes of a term -/

/-- An operation with its operands. -/
structure ArithNode where
  op : ArithOp
  left : Value
  right : Value

mutual

/-- The arithmetic nodes of a value, those in its guards included. -/
def Value.arithNodes : Value → List ArithNode
  | .lit _ | .var _ _ => []
  | .concat parts => Value.arithNodesIn parts
  | .arith op l r => ⟨op, l, r⟩ :: (l.arithNodes ++ r.arithNodes)
  | .ite c t e => c.arithNodes ++ (t.arithNodes ++ e.arithNodes)

/-- The arithmetic nodes of a list of values. -/
def Value.arithNodesIn : List Value → List ArithNode
  | [] => []
  | v :: vs => v.arithNodes ++ Value.arithNodesIn vs

/-- The arithmetic nodes of a guard. -/
def Guard.arithNodes : Guard → List ArithNode
  | .const _ => []
  | .compare _ l r => l.arithNodes ++ r.arithNodes
  | .not g => g.arithNodes
  | .junction _ parts => Guard.arithNodesIn parts
  | .affix _ p t => p.arithNodes ++ t.arithNodes

/-- The arithmetic nodes of a list of guards. -/
def Guard.arithNodesIn : List Guard → List ArithNode
  | [] => []
  | g :: gs => g.arithNodes ++ Guard.arithNodesIn gs

end

/-- The operation has a result wherever its operands do. -/
def ArithNode.Defined (sem : IntSemantics) (env : Assignment) (n : ArithNode) : Prop :=
  ∀ a b, n.left.eval sem env = some (.int a) → n.right.eval sem env = some (.int b) →
    ∃ k, n.op.apply sem a b = some k

/-- Neither a division nor a remainder. -/
def ArithNode.divisionFree (n : ArithNode) : Bool := n.op ≠ .div ∧ n.op ≠ .rem

/-- Words wrap around, so without division every operation has a result. -/
theorem ArithNode.defined_of_divisionFree {bits : UInt32} {n : ArithNode}
    (h : n.divisionFree = true) : n.Defined (.wrapping bits) env := by
  intro a b _ _
  obtain ⟨op, l, r⟩ := n
  cases op <;>
    simp_all [ArithNode.divisionFree, ArithOp.apply, ArithOp.exact, IntSemantics.normalize]

/-! ## 4. Progress -/

/-- Each of the variables is bound to a constant of its sort. -/
def Assignment.Binds (env : Assignment) (vars : List (String × ValueSort)) : Prop :=
  ∀ p ∈ vars, ∃ c, env.find? p.1 = some c ∧ c.sort = p.2

instance (env : Assignment) (vars : List (String × ValueSort)) : Decidable (env.Binds vars) :=
  decidable_of_iff (∀ p ∈ vars, (env.read p.1 p.2).isSome = true) <| by
    simp only [Option.isSome_iff_exists, Assignment.read_eq_some]
    exact Iff.rfl

theorem Assignment.Binds.mono {vars sub : List (String × ValueSort)} (h : env.Binds vars)
    (hsub : ∀ p ∈ sub, p ∈ vars) : env.Binds sub := fun p hp => h p (hsub p hp)

theorem Assignment.Binds.left {us vs : List (String × ValueSort)} (h : env.Binds (us ++ vs)) :
    env.Binds us := h.mono fun _ => List.mem_append_left vs

theorem Assignment.Binds.right {us vs : List (String × ValueSort)} (h : env.Binds (us ++ vs)) :
    env.Binds vs := h.mono fun _ => List.mem_append_right us

/-- What is bound stays bound where the assignment is extended. -/
theorem Assignment.Binds.extend {env' : Assignment} {vars : List (String × ValueSort)}
    (h : env.Binds vars) (hkeep : ∀ name c, env.find? name = some c → env'.find? name = some c) :
    env'.Binds vars := by
  intro p hp
  obtain ⟨c, hc, hsort⟩ := h p hp
  exact ⟨c, hkeep p.1 c hc, hsort⟩

theorem Assignment.Binds.exists_str {name : String} {rest : List (String × ValueSort)}
    (h : env.Binds ((name, .string) :: rest)) : ∃ a, env.find? name = some (.str a) := by
  obtain ⟨c, hc, hsort⟩ := h _ (List.mem_cons_self ..)
  obtain ⟨a, rfl⟩ := Constant.eq_str_of_sort hsort
  exact ⟨a, hc⟩

/-- Every word is a word: reading a literal succeeds under both readings of integers. -/
theorem Constant.exists_eval (k : Constant) : ∃ c, k.eval sem = some c := by
  cases k with
  | int n =>
    cases sem with
    | unbounded =>
      have hword : -0x8000000000000000 ≤ n.toInt ∧ n.toInt < 0x8000000000000000 :=
        ⟨n.le_toInt, n.toInt_lt⟩
      rw [Constant.eval, IntSemantics.normalize, exactWord, if_pos hword]
      exact ⟨_, rfl⟩
    | wrapping bits => exact ⟨_, rfl⟩
  | _ => exact ⟨_, rfl⟩

theorem Junction.exists_combine {j : Junction} (a b : Bool) :
    ∃ c, j.combine (some a) (some b) = some c := by
  by_cases h : a = j.absorbing
  · exact ⟨a, by simp [Junction.combine, h]⟩
  · exact ⟨b, by simp [Junction.combine, h]⟩

/-- A junction of decided parts is decided. -/
theorem Guard.exists_evalJunction_of_forall {j : Junction} : ∀ {gs : List Guard},
    (∀ g ∈ gs, ∃ c, g.eval sem env = some c) → ∃ c, Guard.evalJunction sem env j gs = some c
  | [], _ => ⟨j.neutral, rfl⟩
  | g :: gs, h => by
    obtain ⟨x, hx⟩ := h g (List.mem_cons_self ..)
    obtain ⟨y, hy⟩ := Guard.exists_evalJunction_of_forall (j := j)
      fun g' hg' => h g' (List.mem_cons_of_mem _ hg')
    rw [Guard.evalJunction, hx, hy]
    exact Junction.exists_combine x y

mutual

/-- **Well-sorted values are decided** where their variables are bound and their arithmetic is
defined. -/
theorem Value.exists_eval : ∀ {v : Value} {s : ValueSort}, v.sort = .ok s →
    env.Binds v.occurrences → (∀ n ∈ v.arithNodes, n.Defined sem env) →
      ∃ c, v.eval sem env = some c
  | .lit k, _, _, _, _ => k.exists_eval
  | .var name t, _, _, hb, _ => by
    obtain ⟨c, hc, hsort⟩ := hb (name, t) (by simp [Value.occurrences])
    exact ⟨c, Assignment.read_eq_some.mpr ⟨hc, hsort⟩⟩
  | .concat parts, _, hs, hb, hd => by
    obtain ⟨hparts, -⟩ := Value.sort_concat_eq_ok.mp hs
    obtain ⟨t, ht⟩ := Value.exists_evalText hparts hb hd
    exact ⟨.str t, Value.eval_concat_eq_some.mpr ⟨t, ht, rfl⟩⟩
  | .arith op l r, _, hs, hb, hd => by
    obtain ⟨hl, hr, -⟩ := Value.sort_arith_eq_ok.mp hs
    obtain ⟨hnode, hoperands⟩ := List.forall_mem_cons.mp hd
    obtain ⟨hdl, hdr⟩ := List.forall_mem_append.mp hoperands
    obtain ⟨x, hx⟩ := Value.exists_eval hl hb.left hdl
    obtain ⟨y, hy⟩ := Value.exists_eval hr hb.right hdr
    obtain ⟨a, rfl⟩ := Constant.eq_int_of_sort (Value.sort_of_eval hl hx)
    obtain ⟨b, rfl⟩ := Constant.eq_int_of_sort (Value.sort_of_eval hr hy)
    obtain ⟨k, hk⟩ := hnode a b hx hy
    exact ⟨.int k, Value.eval_arith_eq_some.mpr ⟨a, hx, b, hy, k, hk, rfl⟩⟩
  | .ite g t e, _, hs, hb, hd => by
    obtain ⟨hg, ht, he⟩ := Value.sort_ite_eq_ok.mp hs
    obtain ⟨hdg, hbranches⟩ := List.forall_mem_append.mp hd
    obtain ⟨hdt, hde⟩ := List.forall_mem_append.mp hbranches
    obtain ⟨b, hbg⟩ := Guard.exists_eval hg hb.left hdg
    cases b with
    | false =>
      obtain ⟨c, hc⟩ := Value.exists_eval he hb.right.right hde
      exact ⟨c, Value.eval_ite_eq_some.mpr ⟨false, hbg, hc⟩⟩
    | true =>
      obtain ⟨c, hc⟩ := Value.exists_eval ht hb.right.left hdt
      exact ⟨c, Value.eval_ite_eq_some.mpr ⟨true, hbg, hc⟩⟩

theorem Value.exists_evalText : ∀ {vs : List Value}, Value.allStrings vs = .ok () →
    env.Binds (Value.occurrencesIn vs) → (∀ n ∈ Value.arithNodesIn vs, n.Defined sem env) →
      ∃ s, Value.evalText sem env vs = some s
  | [], _, _, _ => ⟨"", rfl⟩
  | v :: vs, hs, hb, hd => by
    obtain ⟨hv, hvs⟩ := Value.allStrings_cons_eq_ok.mp hs
    obtain ⟨hdv, hdvs⟩ := List.forall_mem_append.mp hd
    obtain ⟨c, hc⟩ := Value.exists_eval hv hb.left hdv
    obtain ⟨a, rfl⟩ := Value.eval_eq_str hv hc
    obtain ⟨b, hbs⟩ := Value.exists_evalText hvs hb.right hdvs
    exact ⟨a ++ b, Value.evalText_cons_eq_some.mpr ⟨a, hc, b, hbs, rfl⟩⟩

/-- **Well-sorted guards are decided** where their variables are bound and their arithmetic is
defined. -/
theorem Guard.exists_eval : ∀ {g : Guard}, g.check = .ok () →
    env.Binds g.occurrences → (∀ n ∈ g.arithNodes, n.Defined sem env) →
      ∃ b, g.eval sem env = some b
  | .const b, _, _, _ => ⟨b, rfl⟩
  | .compare op l r, hs, hb, hd => by
    obtain ⟨s, hl, hr, hop⟩ := Guard.check_compare_eq_ok.mp hs
    obtain ⟨hdl, hdr⟩ := List.forall_mem_append.mp hd
    obtain ⟨x, hx⟩ := Value.exists_eval hl hb.left hdl
    obtain ⟨y, hy⟩ := Value.exists_eval hr hb.right hdr
    have hxs : x.sort = s := Value.sort_of_eval hl hx
    have hys : y.sort = s := Value.sort_of_eval hr hy
    obtain ⟨b, hxy⟩ := CompareOp.exists_eval (hxs.trans hys.symm) (hxs ▸ hop)
    exact ⟨b, Guard.eval_compare_eq_some.mpr ⟨x, hx, y, hy, hxy⟩⟩
  | .not g, hs, hb, hd => by
    have hg : g.check = .ok () := hs
    obtain ⟨b, hbg⟩ := Guard.exists_eval hg hb hd
    exact ⟨!b, Guard.eval_not_eq_some.mpr (by simpa using hbg)⟩
  | .junction j parts, hs, hb, hd => Guard.exists_evalJunction hs hb hd
  | .affix side part text, hs, hb, hd => by
    obtain ⟨hp, ht⟩ := Guard.check_affix_eq_ok.mp hs
    obtain ⟨hdp, hdt⟩ := List.forall_mem_append.mp hd
    obtain ⟨x, hx⟩ := Value.exists_eval hp hb.left hdp
    obtain ⟨y, hy⟩ := Value.exists_eval ht hb.right hdt
    obtain ⟨p, rfl⟩ := Value.eval_eq_str hp hx
    obtain ⟨t, rfl⟩ := Value.eval_eq_str ht hy
    exact ⟨side.tests p t, Guard.eval_affix_eq_some.mpr ⟨p, hx, t, hy, rfl⟩⟩

theorem Guard.exists_evalJunction {j : Junction} : ∀ {gs : List Guard},
    Guard.checkAll gs = .ok () → env.Binds (Guard.occurrencesIn gs) →
      (∀ n ∈ Guard.arithNodesIn gs, n.Defined sem env) →
        ∃ b, Guard.evalJunction sem env j gs = some b
  | [], _, _, _ => ⟨j.neutral, rfl⟩
  | g :: gs, hs, hb, hd => by
    obtain ⟨hg, hgs⟩ := Guard.checkAll_cons_eq_ok.mp hs
    obtain ⟨hdg, hdgs⟩ := List.forall_mem_append.mp hd
    obtain ⟨a, ha⟩ := Guard.exists_eval hg hb.left hdg
    obtain ⟨b, hbs⟩ := Guard.exists_evalJunction (j := j) hgs hb.right hdgs
    rw [Guard.evalJunction, ha, hbs]
    exact Junction.exists_combine a b

end

/-! ## 5. Why a well-sorted term is undecided -/

/-- The operation divides by zero, or integers are unbounded and its exact result is no 64-bit
word. -/
def ArithOp.Fails (sem : IntSemantics) (op : ArithOp) (a b : Int64) : Prop :=
  (op = .div ∨ op = .rem) ∧ b = 0 ∨
    sem = .unbounded ∧ ∃ k, op.exact sem a.toInt b.toInt = some k ∧
      ¬(-0x8000000000000000 ≤ k ∧ k < 0x8000000000000000)

theorem ArithOp.exact_eq_none_iff {op : ArithOp} {a b : Int} :
    op.exact sem a b = none ↔ (op = .div ∨ op = .rem) ∧ b = 0 := by
  cases op with
  | add | sub | mul => simp [ArithOp.exact]
  | div | rem => cases sem <;> simp [ArithOp.exact]

theorem IntSemantics.normalize_eq_none_iff {k : Int} :
    sem.normalize k = none
      ↔ sem = .unbounded ∧ ¬(-0x8000000000000000 ≤ k ∧ k < 0x8000000000000000) := by
  cases sem with
  | unbounded => simp [IntSemantics.normalize, exactWord]
  | wrapping bits => simp [IntSemantics.normalize]

/-- **An operation on words has no result** exactly where it fails. -/
theorem ArithOp.apply_eq_none_iff {op : ArithOp} {a b : Int64} :
    op.apply sem a b = none ↔ op.Fails sem a b := by
  have hzero : b.toInt = 0 ↔ b = 0 := Int64.toInt_inj (y := 0)
  unfold ArithOp.apply ArithOp.Fails
  cases hexact : op.exact sem a.toInt b.toInt with
  | none =>
    obtain ⟨hop, hb⟩ := ArithOp.exact_eq_none_iff.mp hexact
    exact ⟨fun _ => .inl ⟨hop, hzero.mp hb⟩, fun _ => rfl⟩
  | some k =>
    -- the divisor, if there is one, is not zero, so only the range is left
    have hdefined : ¬((op = .div ∨ op = .rem) ∧ b = 0) := by
      rintro ⟨hop, hb⟩
      have hnone : op.exact sem a.toInt b.toInt = none :=
        ArithOp.exact_eq_none_iff.mpr ⟨hop, hzero.mpr hb⟩
      exact absurd (hnone.symm.trans hexact) (by simp)
    simp [hdefined, IntSemantics.normalize_eq_none_iff]

/-- The operands have numbers, and the operation fails on them. -/
def ArithNode.Fails (sem : IntSemantics) (env : Assignment) (n : ArithNode) : Prop :=
  ∃ a b, n.left.eval sem env = some (.int a) ∧ n.right.eval sem env = some (.int b) ∧
    n.op.Fails sem a b

theorem ArithNode.defined_of_not_fails {nodes : List ArithNode}
    (h : ¬∃ n ∈ nodes, n.Fails sem env) : ∀ n ∈ nodes, n.Defined sem env := by
  intro n hn a b ha hb
  cases happly : n.op.apply sem a b with
  | none => exact absurd ⟨n, hn, a, b, ha, hb, ArithOp.apply_eq_none_iff.mp happly⟩ h
  | some k => exact ⟨k, rfl⟩

/-- **An undecided value has a node at fault**, if it is well-sorted and its variables are bound. -/
theorem Value.exists_fails {v : Value} {s : ValueSort} (hs : v.sort = .ok s)
    (hb : env.Binds v.occurrences) (h : v.eval sem env = none) :
    ∃ n ∈ v.arithNodes, n.Fails sem env := by
  refine Classical.byContradiction fun hnone => ?_
  obtain ⟨c, hc⟩ := Value.exists_eval hs hb (ArithNode.defined_of_not_fails hnone)
  exact absurd (h.symm.trans hc) (by simp)

/-- **An undecided guard has a node at fault**, if it is well-sorted and its variables are bound. -/
theorem Guard.exists_fails {g : Guard} (hs : g.check = .ok ()) (hb : env.Binds g.occurrences)
    (h : g.eval sem env = none) : ∃ n ∈ g.arithNodes, n.Fails sem env := by
  refine Classical.byContradiction fun hnone => ?_
  obtain ⟨b, hbg⟩ := Guard.exists_eval hs hb (ArithNode.defined_of_not_fails hnone)
  exact absurd (h.symm.trans hbg) (by simp)

/-- **Well-sorted terms do not go wrong.**  A result has the sort of its value.  Where the
variables are bound, words without division decide every value and every guard, and in general a
term that is undecided has an operation inside that fails on the numbers of its operands. -/
theorem well_sorted_terms_do_not_go_wrong (env : Assignment) :
    (∀ (sem : IntSemantics) (v : Value) (s : ValueSort) (c : Constant),
      v.sort = .ok s → v.eval sem env = some c → c.sort = s) ∧
    (∀ (v : Value) (s : ValueSort), v.sort = .ok s → env.Binds v.occurrences →
      (∀ bits, (∀ n ∈ v.arithNodes, n.divisionFree = true) →
        ∃ c, v.eval (.wrapping bits) env = some c) ∧
      ∀ sem, v.eval sem env = none → ∃ n ∈ v.arithNodes, n.Fails sem env) ∧
    ∀ g : Guard, g.check = .ok () → env.Binds g.occurrences →
      (∀ bits, (∀ n ∈ g.arithNodes, n.divisionFree = true) →
        ∃ b, g.eval (.wrapping bits) env = some b) ∧
      ∀ sem, g.eval sem env = none → ∃ n ∈ g.arithNodes, n.Fails sem env := by
  refine ⟨?_, ?_, ?_⟩
  · intro sem v s c hs h
    exact Value.sort_of_eval hs h
  · intro v s hs hb
    refine ⟨?_, fun sem h => Value.exists_fails hs hb h⟩
    intro bits hfree
    exact Value.exists_eval hs hb fun n hn => ArithNode.defined_of_divisionFree (hfree n hn)
  · intro g hs hb
    refine ⟨?_, fun sem h => Guard.exists_fails hs hb h⟩
    intro bits hfree
    exact Guard.exists_eval hs hb fun n hn => ArithNode.defined_of_divisionFree (hfree n hn)

/-- A sum too large for a word, and a test of a quotient by zero: the first is undecided where
integers are unbounded and decided where they wrap, the second is undecided under both readings. -/
theorem well_sorted_terms_do_not_go_wrong_largest :
    let env : Assignment := .ofList [("n", .int 0)]
    let sum := Value.arith .add (.lit (.int Int64.maxValue)) (.lit (.int 1))
    let test := Guard.compare .lt (.arith .div sum (.var "n" .int)) sum
    (sum.eval .unbounded env = none ∧ ∃ n ∈ sum.arithNodes, n.Fails .unbounded env) ∧
    (∃ c, sum.eval (.wrapping 64) env = some c ∧ c.sort = .int) ∧
    (test.eval (.wrapping 64) env = none ∧ ∃ n ∈ test.arithNodes, n.Fails (.wrapping 64) env) := by
  intro env sum test
  have hsum : sum.sort = .ok .int := rfl
  have htest : test.check = .ok () := rfl
  have hlarge : sum.eval .unbounded env = none := by with_unfolding_all rfl
  have hzero : test.eval (.wrapping 64) env = none := by with_unfolding_all rfl
  obtain ⟨hsorts, hvalues, hguards⟩ := well_sorted_terms_do_not_go_wrong env
  obtain ⟨hwords, hfault⟩ := hvalues sum .int hsum (by decide)
  obtain ⟨-, hfaultTest⟩ := hguards test htest (by decide)
  obtain ⟨c, hc⟩ := hwords 64 (by decide)
  exact ⟨⟨hlarge, hfault .unbounded hlarge⟩, ⟨c, hc, hsorts _ sum .int c hsum hc⟩,
    hzero, hfaultTest (.wrapping 64) hzero⟩

end SinkReach
