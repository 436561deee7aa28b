/-
# Canonical forms are normal forms

`Value.Normal` and `Guard.Normal` say what a tree looks like on which no rewriting has anything left
to do, without a word about the rewritings.  Canonical forms are normal (`Value.normal_canonical`,
`Guard.normal_canonical`), and a normal tree is its own canonical form
(`Value.canonical_of_normal`, `Guard.canonical_of_normal`).  So to be canonical is to be normal, and
bringing a tree into canonical form twice changes nothing the second time.

One rewriting may make room for another: a choice that collapses inside a concatenation leaves a
concatenation to be flattened, and a double negation that cancels leaves a conjunction.  None of
this needs an argument of its own, because every node lemma below is about operands that are normal
ALREADY, whatever they were before.
-/
import Mathlib.Data.List.Chain
import SinkReach.Proofs.Order

namespace SinkReach

/-! ## 1. Normal trees -/

/-- A string literal. -/
def Value.isText : Value → Bool
  | .lit (.str _) => true
  | _ => false

/-- A truth value as a literal. -/
def Value.isTruth : Value → Bool
  | .lit (.bool _) => true
  | _ => false

def Value.isConcat : Value → Bool
  | .concat _ => true
  | _ => false

def Guard.isConst : Guard → Bool
  | .const _ => true
  | _ => false

/-- A junction of this kind. -/
def Guard.isJunction (j : Junction) : Guard → Bool
  | .junction k _ => k = j
  | _ => false

/-- A guard whose negation has no other form: a junction, or an affix test. -/
def Guard.keepsNot : Guard → Bool
  | .junction _ _ | .affix _ _ _ => true
  | _ => false

/-- Parts of a concatenation with nothing left to flatten, to drop or to merge. -/
structure Value.Fused (parts : List Value) : Prop where
  flat : ∀ p ∈ parts, p.isConcat = false
  nonempty : ∀ p ∈ parts, p ≠ .str ""
  apart : parts.IsChain fun p q => ¬ (p.isText = true ∧ q.isText = true)

/-- Parts of a junction with nothing left to flatten, to drop or to sort. -/
structure Junction.Ordered (j : Junction) (parts : List Guard) : Prop where
  increasing : parts.Pairwise Guard.Before
  undecided : ∀ g ∈ parts, g.isConst = false
  flat : ∀ g ∈ parts, g.isJunction j = false

mutual

/-- A value in which no node can be simplified. -/
def Value.Normal : Value → Prop
  | .lit _ | .var _ _ => True
  | .concat parts => 2 ≤ parts.length ∧ Value.Fused parts ∧ Value.AllNormal parts
  | .arith _ l r => l.Normal ∧ r.Normal
  | .ite c t e => c.isConst = false ∧ t ≠ e ∧ c.Normal ∧ t.Normal ∧ e.Normal

/-- All values of a list are normal. -/
def Value.AllNormal : List Value → Prop
  | [] => True
  | v :: vs => v.Normal ∧ Value.AllNormal vs

/-- A guard in which no node can be simplified. -/
def Guard.Normal : Guard → Prop
  | .const _ => True
  | .compare _ l r =>
    l ≠ r ∧ ¬ (l.isText = true ∧ r.isText = true) ∧ ¬ (l.isTruth = true ∧ r.isTruth = true) ∧
      l.Normal ∧ r.Normal
  | .not g => g.keepsNot = true ∧ g.Normal
  | .junction j parts => 2 ≤ parts.length ∧ j.Ordered parts ∧ Guard.AllNormal parts
  | .affix _ p t => p ≠ t ∧ ¬ (p.isText = true ∧ t.isText = true) ∧ p.Normal ∧ t.Normal

/-- All guards of a list are normal. -/
def Guard.AllNormal : List Guard → Prop
  | [] => True
  | g :: gs => g.Normal ∧ Guard.AllNormal gs

end

theorem Value.allNormal_iff {vs : List Value} : Value.AllNormal vs ↔ ∀ v ∈ vs, v.Normal := by
  induction vs with
  | nil => simp [Value.AllNormal]
  | cons v vs ih => simp [Value.AllNormal, ih]

theorem Guard.allNormal_iff {gs : List Guard} : Guard.AllNormal gs ↔ ∀ g ∈ gs, g.Normal := by
  induction gs with
  | nil => simp [Guard.AllNormal]
  | cons g gs ih => simp [Guard.AllNormal, ih]

theorem two_le_length {α : Type} {l : List α} (hnil : l ≠ []) (hsingle : ∀ x, l ≠ [x]) :
    2 ≤ l.length := by
  match l with
  | [] => exact absurd rfl hnil
  | [x] => exact absurd rfl (hsingle x)
  | _ :: _ :: _ => simp

/-! ## 2. Concatenations -/

theorem Value.isText_iff {v : Value} : v.isText = true ↔ ∃ s, v = .str s := by
  unfold Value.isText
  split
  · next s => exact ⟨fun _ => ⟨s, rfl⟩, fun _ => rfl⟩
  · next h => exact ⟨fun hf => absurd hf (by simp), fun ⟨s, hs⟩ => (h s hs).elim⟩

theorem Value.isTruth_iff {v : Value} : v.isTruth = true ↔ ∃ b, v = .bool b := by
  unfold Value.isTruth
  split
  · next b => exact ⟨fun _ => ⟨b, rfl⟩, fun _ => rfl⟩
  · next h => exact ⟨fun hf => absurd hf (by simp), fun ⟨b, hb⟩ => (h b hb).elim⟩

/-- The parts of a normal value are normal, and not concatenations. -/
theorem Value.Normal.parts {v p : Value} (hv : v.Normal) (hp : p ∈ v.parts) :
    p.isConcat = false ∧ p.Normal := by
  cases v with
  | concat ps =>
    obtain ⟨-, hfused, hnormal⟩ := hv
    exact ⟨hfused.flat p hp, Value.allNormal_iff.mp hnormal p hp⟩
  | _ =>
    obtain rfl := List.mem_singleton.mp hp
    exact ⟨rfl, hv⟩

theorem Value.Fused.tail {v : Value} {vs : List Value} (h : Value.Fused (v :: vs)) :
    Value.Fused vs where
  flat p hp := h.flat p (List.mem_cons_of_mem _ hp)
  nonempty p hp := h.nonempty p (List.mem_cons_of_mem _ hp)
  apart := h.apart.tail

theorem Value.Fused.cons {v : Value} {vs : List Value} (h : Value.Fused vs)
    (hflat : v.isConcat = false) (hne : v ≠ .str "")
    (hapart : ∀ w ∈ vs.head?, ¬ (v.isText = true ∧ w.isText = true)) :
    Value.Fused (v :: vs) where
  flat := List.forall_mem_cons.mpr ⟨hflat, h.flat⟩
  nonempty := List.forall_mem_cons.mpr ⟨hne, h.nonempty⟩
  apart := List.isChain_cons.mpr ⟨hapart, h.apart⟩

theorem Value.fused_fuseCons {v : Value} {vs : List Value} (hflat : v.isConcat = false)
    (h : Value.Fused vs) : Value.Fused (Value.fuseCons v vs) := by
  unfold Value.fuseCons
  split
  · next s =>
    split
    · exact h
    · next hs =>
      split
      · next t more =>
        -- The merged literal stands where the second one stood, so what follows is no literal.
        refine h.tail.cons rfl ?_ ?_
        · simpa using fun hst => absurd hst hs
        · intro w hw ⟨_, htext⟩
          exact (List.isChain_cons.mp h.apart).1 w hw ⟨rfl, htext⟩
      · next hhead =>
        refine h.cons rfl (by simpa using hs) ?_
        intro w hw ⟨_, htext⟩
        obtain ⟨t, rfl⟩ := Value.isText_iff.mp htext
        obtain ⟨more, rfl⟩ := List.head?_eq_some_iff.mp hw
        exact hhead t more rfl
  · next hv =>
    refine h.cons hflat (hv _) ?_
    intro w _ ⟨htext, _⟩
    obtain ⟨s, rfl⟩ := Value.isText_iff.mp htext
    exact hv s rfl

theorem Value.fused_fuse {vs : List Value} (h : ∀ v ∈ vs, v.isConcat = false) :
    Value.Fused (Value.fuse vs) := by
  induction vs with
  | nil => exact ⟨by simp [Value.fuse], by simp [Value.fuse], .nil⟩
  | cons v vs ih =>
    obtain ⟨hv, hvs⟩ := List.forall_mem_cons.mp h
    exact Value.fused_fuseCons hv (ih hvs)

theorem Value.normal_fuseCons {v : Value} {vs : List Value} (hv : v.Normal)
    (hvs : Value.AllNormal vs) : Value.AllNormal (Value.fuseCons v vs) := by
  unfold Value.fuseCons
  split
  · split
    · exact hvs
    · split
      · exact ⟨trivial, hvs.2⟩
      · exact ⟨trivial, hvs⟩
  · exact ⟨hv, hvs⟩

theorem Value.normal_fuse {vs : List Value} (h : Value.AllNormal vs) :
    Value.AllNormal (Value.fuse vs) := by
  induction vs with
  | nil => exact trivial
  | cons v vs ih => exact Value.normal_fuseCons h.1 (ih h.2)

theorem Value.normal_ofParts {vs : List Value} (hfused : Value.Fused vs)
    (h : Value.AllNormal vs) : (Value.ofParts vs).Normal := by
  unfold Value.ofParts
  split
  · exact trivial
  · exact h.1
  · next hnil hsingle => exact ⟨two_le_length hnil hsingle, hfused, h⟩

/-- **A concatenation of normal values is normal.** -/
theorem Value.normal_join {vs : List Value} (h : Value.AllNormal vs) :
    (Value.join vs).Normal := by
  have hparts : ∀ p ∈ vs.flatMap Value.parts, p.isConcat = false ∧ p.Normal := by
    intro p hp
    obtain ⟨v, hv, hp⟩ := List.mem_flatMap.mp hp
    exact (Value.allNormal_iff.mp h v hv).parts hp
  exact Value.normal_ofParts (Value.fused_fuse fun p hp => (hparts p hp).1)
    (Value.normal_fuse (Value.allNormal_iff.mpr fun p hp => (hparts p hp).2))

theorem Value.fuseCons_of_fused {v : Value} {vs : List Value} (h : Value.Fused (v :: vs)) :
    Value.fuseCons v vs = v :: vs := by
  unfold Value.fuseCons
  split
  · next s =>
    have hne : s ≠ "" := by simpa using h.nonempty _ (List.mem_cons_self ..)
    rw [if_neg hne]
    split
    · next t more =>
      exact absurd ⟨rfl, rfl⟩ ((List.isChain_cons.mp h.apart).1 (.str t) rfl)
    · rfl
  · rfl

theorem Value.fuse_of_fused {vs : List Value} (h : Value.Fused vs) : Value.fuse vs = vs := by
  induction vs with
  | nil => rfl
  | cons v vs ih =>
    calc Value.fuse (v :: vs) = Value.fuseCons v (Value.fuse vs) := rfl
      _ = Value.fuseCons v vs := by rw [ih h.tail]
      _ = v :: vs := Value.fuseCons_of_fused h

theorem Value.parts_of_isConcat {v : Value} (h : v.isConcat = false) : v.parts = [v] := by
  cases v with
  | concat ps => exact absurd h (by simp [Value.isConcat])
  | _ => rfl

theorem Value.flatMap_parts_of_flat {vs : List Value} (h : ∀ v ∈ vs, v.isConcat = false) :
    vs.flatMap Value.parts = vs := by
  induction vs with
  | nil => rfl
  | cons v vs ih =>
    obtain ⟨hv, hvs⟩ := List.forall_mem_cons.mp h
    rw [List.flatMap_cons, Value.parts_of_isConcat hv, ih hvs, List.singleton_append]

/-- Fused parts, if there are two, are joined by doing nothing. -/
theorem Value.join_of_fused {vs : List Value} (hlen : 2 ≤ vs.length) (h : Value.Fused vs) :
    Value.join vs = .concat vs := by
  rw [Value.join, Value.flatMap_parts_of_flat h.flat, Value.fuse_of_fused h]
  match vs, hlen with
  | _ :: _ :: _, _ => rfl

/-! ## 3. Choices, comparisons, negations and affix tests -/

theorem Value.normal_choose {g : Guard} {yes no : Value} (hg : g.Normal) (hyes : yes.Normal)
    (hno : no.Normal) : (Value.choose g yes no).Normal := by
  unfold Value.choose
  split
  · exact hyes
  · exact hno
  · next htrue hfalse =>
    split
    · exact hyes
    · next hne =>
      refine ⟨?_, hne, hg, hyes, hno⟩
      cases g with
      | const b => cases b <;> simp_all
      | _ => rfl

theorem Value.choose_of_ne {g : Guard} {yes no : Value} (hg : g.isConst = false)
    (hne : yes ≠ no) : Value.choose g yes no = .ite g yes no := by
  cases g with
  | const b => exact absurd hg (by simp [Guard.isConst])
  | _ => simp [Value.choose, hne]

theorem Guard.normal_ofCompare {op : CompareOp} {l r : Value} (hl : l.Normal) (hr : r.Normal) :
    (Guard.ofCompare op l r).Normal := by
  unfold Guard.ofCompare
  split
  · exact trivial
  · next hne =>
    split
    · exact trivial
    · exact trivial
    · next htext htruth =>
      refine ⟨hne, ?_, ?_, hl, hr⟩
      · rintro ⟨hl, hr⟩
        obtain ⟨s, rfl⟩ := Value.isText_iff.mp hl
        obtain ⟨t, rfl⟩ := Value.isText_iff.mp hr
        exact htext s t rfl rfl
      · rintro ⟨hl, hr⟩
        obtain ⟨a, rfl⟩ := Value.isTruth_iff.mp hl
        obtain ⟨b, rfl⟩ := Value.isTruth_iff.mp hr
        exact htruth a b rfl rfl

theorem Guard.ofCompare_of_normal {op : CompareOp} {l r : Value}
    (h : (Guard.compare op l r).Normal) : Guard.ofCompare op l r = .compare op l r := by
  obtain ⟨hne, htext, htruth, -, -⟩ := h
  unfold Guard.ofCompare
  rw [if_neg hne]
  split
  · exact absurd ⟨rfl, rfl⟩ htext
  · exact absurd ⟨rfl, rfl⟩ htruth
  · rfl

theorem Guard.normal_negate {g : Guard} (h : g.Normal) : g.negate.Normal := by
  cases g with
  | const b => exact trivial
  | compare op l r => exact h
  | not g => exact h.2
  | junction j gs => exact ⟨rfl, h⟩
  | affix side p t => exact ⟨rfl, h⟩

theorem Guard.negate_of_keepsNot {g : Guard} (h : g.keepsNot = true) : g.negate = .not g := by
  cases g with
  | junction j gs => rfl
  | affix side p t => rfl
  | _ => exact absurd h (by simp [Guard.keepsNot])

theorem Guard.normal_ofAffix {side : Side} {p t : Value} (hp : p.Normal) (ht : t.Normal) :
    (Guard.ofAffix side p t).Normal := by
  unfold Guard.ofAffix
  split
  · exact trivial
  · next htext =>
    split
    · exact trivial
    · next hne =>
      refine ⟨hne, ?_, hp, ht⟩
      rintro ⟨hp, ht⟩
      obtain ⟨s, rfl⟩ := Value.isText_iff.mp hp
      obtain ⟨s', rfl⟩ := Value.isText_iff.mp ht
      exact htext s s' rfl rfl

theorem Guard.ofAffix_of_normal {side : Side} {p t : Value}
    (h : (Guard.affix side p t).Normal) : Guard.ofAffix side p t = .affix side p t := by
  obtain ⟨hne, htext, -, -⟩ := h
  unfold Guard.ofAffix
  split
  · exact absurd ⟨rfl, rfl⟩ htext
  · rw [if_neg hne]

/-! ## 4. Junctions -/

/-- What a normal guard contributes to a junction is normal, and can neither be dropped nor be
flattened any further. -/
theorem Junction.normal_contribution {j : Junction} {g x : Guard} (hg : g.Normal)
    (hx : x ∈ j.contribution g) : x.Normal ∧ x.isConst = false ∧ x.isJunction j = false := by
  cases g with
  | const b => exact absurd hx (by simp [Junction.contribution])
  | junction k gs =>
    by_cases hk : k = j
    · subst hk
      have hx : x ∈ gs := by simpa [Junction.contribution] using hx
      obtain ⟨-, hordered, hnormal⟩ := hg
      exact ⟨Guard.allNormal_iff.mp hnormal x hx, hordered.undecided x hx, hordered.flat x hx⟩
    · obtain rfl : x = .junction k gs := by simpa [Junction.contribution, hk] using hx
      exact ⟨hg, rfl, by simpa [Guard.isJunction] using hk⟩
  | _ =>
    obtain rfl : x = _ := by simpa [Junction.contribution] using hx
    exact ⟨hg, rfl, rfl⟩

theorem Junction.contribution_of_flat {j : Junction} {g : Guard} (hconst : g.isConst = false)
    (hflat : g.isJunction j = false) : j.contribution g = [g] := by
  cases g with
  | const b => exact absurd hconst (by simp [Guard.isConst])
  | junction k gs =>
    have hk : k ≠ j := by simpa [Guard.isJunction] using hflat
    simp [Junction.contribution, hk]
  | _ => rfl

theorem Junction.flatMap_contribution_of_flat {j : Junction} {gs : List Guard}
    (hconst : ∀ g ∈ gs, g.isConst = false) (hflat : ∀ g ∈ gs, g.isJunction j = false) :
    gs.flatMap j.contribution = gs := by
  induction gs with
  | nil => rfl
  | cons g gs ih =>
    obtain ⟨hg, hgs⟩ := List.forall_mem_cons.mp hconst
    obtain ⟨hgf, hgsf⟩ := List.forall_mem_cons.mp hflat
    rw [List.flatMap_cons, Junction.contribution_of_flat hg hgf, ih hgs hgsf,
      List.singleton_append]

theorem Junction.normal_ofParts {j : Junction} {gs : List Guard} (hordered : j.Ordered gs)
    (h : Guard.AllNormal gs) : (j.ofParts gs).Normal := by
  unfold Junction.ofParts
  split
  · exact trivial
  · exact h.1
  · next hnil hsingle => exact ⟨two_le_length hnil hsingle, hordered, h⟩

/-- What normal guards contribute, sorted and without repetitions, is in order. -/
theorem Junction.ordered_contributions {j : Junction} {gs : List Guard} (h : Guard.AllNormal gs) :
    j.Ordered (Guard.dropRepeats (sortBy Guard.cmp (gs.flatMap j.contribution))) := by
  have hparts : ∀ x ∈ Guard.dropRepeats (sortBy Guard.cmp (gs.flatMap j.contribution)),
      x.isConst = false ∧ x.isJunction j = false := by
    intro x hx
    obtain ⟨g, hg, hx⟩ := List.mem_flatMap.mp (Guard.mem_dropRepeats_sortBy.mp hx)
    exact (Junction.normal_contribution (Guard.allNormal_iff.mp h g hg) hx).2
  exact ⟨Guard.pairwise_dropRepeats_sortBy _, fun x hx => (hparts x hx).1,
    fun x hx => (hparts x hx).2⟩

/-- **A junction of normal guards is normal.** -/
theorem Junction.normal_join {j : Junction} {gs : List Guard} (h : Guard.AllNormal gs) :
    (j.join gs).Normal := by
  unfold Junction.join
  split
  · exact trivial
  · refine Junction.normal_ofParts (Junction.ordered_contributions h) ?_
    refine Guard.allNormal_iff.mpr fun x hx => ?_
    obtain ⟨g, hg, hx⟩ := List.mem_flatMap.mp (Guard.mem_dropRepeats_sortBy.mp hx)
    exact (Junction.normal_contribution (Guard.allNormal_iff.mp h g hg) hx).1

/-- Ordered parts, if there are two, are joined by doing nothing. -/
theorem Junction.join_of_ordered {j : Junction} {gs : List Guard} (hlen : 2 ≤ gs.length)
    (h : j.Ordered gs) : j.join gs = .junction j gs := by
  have habsorbing : Guard.const j.absorbing ∉ gs :=
    fun hmem => absurd (h.undecided _ hmem) (by simp [Guard.isConst])
  rw [Junction.join, if_neg habsorbing, Junction.flatMap_contribution_of_flat h.undecided h.flat,
    Guard.dropRepeats_sortBy_eq h.increasing fun _ => Iff.rfl]
  match gs, hlen with
  | _ :: _ :: _, _ => rfl

/-! ## 5. Whole trees -/

mutual

/-- **The canonical form of a value is normal**, whatever the value is. -/
theorem Value.normal_canonical : ∀ v : Value, v.canonical.Normal
  | .lit _ => trivial
  | .var _ _ => trivial
  | .concat parts => by
    rw [Value.canonical]
    exact Value.normal_join (Value.normal_canonicalAll parts)
  | .arith _ l r => by
    rw [Value.canonical]
    exact ⟨Value.normal_canonical l, Value.normal_canonical r⟩
  | .ite c t e => by
    rw [Value.canonical]
    exact Value.normal_choose (Guard.normal_canonical c) (Value.normal_canonical t)
      (Value.normal_canonical e)

theorem Value.normal_canonicalAll : ∀ vs : List Value, Value.AllNormal (Value.canonicalAll vs)
  | [] => trivial
  | v :: vs => by
    rw [Value.canonicalAll]
    exact ⟨Value.normal_canonical v, Value.normal_canonicalAll vs⟩

/-- **The canonical form of a guard is normal**, whatever the guard is. -/
theorem Guard.normal_canonical : ∀ g : Guard, g.canonical.Normal
  | .const _ => trivial
  | .compare _ l r => by
    rw [Guard.canonical]
    exact Guard.normal_ofCompare (Value.normal_canonical l) (Value.normal_canonical r)
  | .not g => by
    rw [Guard.canonical]
    exact Guard.normal_negate (Guard.normal_canonical g)
  | .junction _ parts => by
    rw [Guard.canonical]
    exact Junction.normal_join (Guard.normal_canonicalAll parts)
  | .affix _ p t => by
    rw [Guard.canonical]
    exact Guard.normal_ofAffix (Value.normal_canonical p) (Value.normal_canonical t)

theorem Guard.normal_canonicalAll : ∀ gs : List Guard, Guard.AllNormal (Guard.canonicalAll gs)
  | [] => trivial
  | g :: gs => by
    rw [Guard.canonicalAll]
    exact ⟨Guard.normal_canonical g, Guard.normal_canonicalAll gs⟩

end

mutual

/-- **A normal value is its own canonical form.** -/
theorem Value.canonical_of_normal : ∀ {v : Value}, v.Normal → v.canonical = v
  | .lit _, _ => rfl
  | .var _ _, _ => rfl
  | .concat parts, h => by
    obtain ⟨hlen, hfused, hnormal⟩ := h
    rw [Value.canonical, Value.canonicalAll_of_normal hnormal, Value.join_of_fused hlen hfused]
  | .arith _ l r, h => by
    rw [Value.canonical, Value.canonical_of_normal h.1, Value.canonical_of_normal h.2]
  | .ite c t e, h => by
    obtain ⟨hconst, hne, hc, ht, he⟩ := h
    rw [Value.canonical, Guard.canonical_of_normal hc, Value.canonical_of_normal ht,
      Value.canonical_of_normal he, Value.choose_of_ne hconst hne]

theorem Value.canonicalAll_of_normal : ∀ {vs : List Value}, Value.AllNormal vs →
    Value.canonicalAll vs = vs
  | [], _ => rfl
  | v :: vs, h => by
    rw [Value.canonicalAll, Value.canonical_of_normal h.1, Value.canonicalAll_of_normal h.2]

/-- **A normal guard is its own canonical form.** -/
theorem Guard.canonical_of_normal : ∀ {g : Guard}, g.Normal → g.canonical = g
  | .const _, _ => rfl
  | .compare op l r, h => by
    have hnormal := h
    obtain ⟨-, -, -, hl, hr⟩ := h
    rw [Guard.canonical, Value.canonical_of_normal hl, Value.canonical_of_normal hr,
      Guard.ofCompare_of_normal hnormal]
  | .not g, h => by
    rw [Guard.canonical, Guard.canonical_of_normal h.2, Guard.negate_of_keepsNot h.1]
  | .junction j parts, h => by
    obtain ⟨hlen, hordered, hnormal⟩ := h
    rw [Guard.canonical, Guard.canonicalAll_of_normal hnormal,
      Junction.join_of_ordered hlen hordered]
  | .affix side p t, h => by
    have hnormal := h
    obtain ⟨-, -, hp, ht⟩ := h
    rw [Guard.canonical, Value.canonical_of_normal hp, Value.canonical_of_normal ht,
      Guard.ofAffix_of_normal hnormal]

theorem Guard.canonicalAll_of_normal : ∀ {gs : List Guard}, Guard.AllNormal gs →
    Guard.canonicalAll gs = gs
  | [], _ => rfl
  | g :: gs, h => by
    rw [Guard.canonicalAll, Guard.canonical_of_normal h.1, Guard.canonicalAll_of_normal h.2]

end

/-- **Canonical forms are the normal forms.**  Every tree, well-sorted or not, has a normal
canonical form; the trees that are their own canonical form are exactly the normal ones; and so a
canonical form is not changed by a second pass. -/
theorem canonical_forms_are_normal_forms :
    (∀ v : Value, v.canonical.Normal ∧ (v.canonical = v ↔ v.Normal) ∧
      v.canonical.canonical = v.canonical) ∧
    (∀ g : Guard, g.canonical.Normal ∧ (g.canonical = g ↔ g.Normal) ∧
      g.canonical.canonical = g.canonical) := by
  constructor
  · intro v
    have hnormal := Value.normal_canonical v
    exact ⟨hnormal, ⟨fun h => h ▸ hnormal, Value.canonical_of_normal⟩,
      Value.canonical_of_normal hnormal⟩
  · intro g
    have hnormal := Guard.normal_canonical g
    exact ⟨hnormal, ⟨fun h => h ▸ hnormal, Guard.canonical_of_normal⟩,
      Guard.canonical_of_normal hnormal⟩

end SinkReach
