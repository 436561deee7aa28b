/-
# What collecting variables establishes

Variables are declared one occurrence after the other, and a name that comes with a second sort is
refused.  So a collection that SUCCEEDS binds every name that occurs to the one sort it occurs
with (`find?_of_declareAll`), keeps what was declared before (`keep_of_declareAll`), and declares
nothing else (`mem_of_declareAll`).

A collection that is refused has met a name with two sorts (`declareAll_eq_error`).  So it succeeds
exactly if what is declared and what occurs leave every name one sort (`exists_declareAll_iff`;
from nothing, `exists_declareAll_empty_iff`), and what it declares depends neither on the order of
the occurrences nor on how many there are (`declareAll_eq_ok_iff`, `declareAll_empty_congr`).
-/
import SinkReach.Proofs.WellSorted

namespace SinkReach

namespace Declarations

variable {vars vars' : Declarations}

/-- Declaring a variable adds it, or finds it there with the same sort. -/
theorem declare_eq_ok {name : String} {s : ValueSort} (h : vars.declare name s = .ok vars') :
    (vars.find? name = none ∧ vars' = vars.insert name s)
      ∨ (vars.find? name = some s ∧ vars' = vars) := by
  unfold declare at h
  split at h
  · next hnone => exact Or.inl ⟨hnone, (Except.ok.inj h).symm⟩
  · next t hsome =>
    split at h
    · next heq => exact Or.inr ⟨heq ▸ hsome, (Except.ok.inj h).symm⟩
    · exact absurd h (by simp)

/-- What the names are bound to after one more declaration. -/
theorem find?_of_declare {name : String} {s : ValueSort} (h : vars.declare name s = .ok vars')
    (other : String) : vars'.find? other = if other = name then some s else vars.find? other := by
  rcases declare_eq_ok h with ⟨-, rfl⟩ | ⟨hsome, rfl⟩
  · rw [Bindings.find?_insert]
  · split
    · next heq => rw [heq, hsome]
    · rfl

/-- One more declaration keeps those before it. -/
theorem keep_of_declare {name other : String} {s t : ValueSort}
    (h : vars.declare name s = .ok vars') (ht : vars.find? other = some t) :
    vars'.find? other = some t := by
  rcases declare_eq_ok h with ⟨hnone, rfl⟩ | ⟨-, rfl⟩
  · have hne : other ≠ name := by
      rintro rfl
      exact absurd (hnone.symm.trans ht) (by simp)
    rw [Bindings.find?_insert, if_neg hne]
    exact ht
  · exact ht

/-- One more declaration adds nothing but itself. -/
theorem mem_of_declare {name other : String} {s t : ValueSort}
    (h : vars.declare name s = .ok vars') (ht : vars'.find? other = some t) :
    vars.find? other = some t ∨ (other, t) = (name, s) := by
  rw [find?_of_declare h] at ht
  split at ht
  · next heq => exact Or.inr (by rw [heq, Option.some.inj ht])
  · exact Or.inl ht

theorem keep_of_declareAll : ∀ {l : List (String × ValueSort)} {vars vars' : Declarations}
    {name : String} {s : ValueSort}, vars.declareAll l = .ok vars' →
      vars.find? name = some s → vars'.find? name = some s
  | [], _, _, _, _, h, hs => by
    obtain rfl := Except.ok.inj h
    exact hs
  | p :: rest, _, _, _, _, h, hs => by
    obtain ⟨mid, hmid, hrest⟩ := bind_eq_ok.mp h
    exact keep_of_declareAll hrest (keep_of_declare hmid hs)

/-- **What a collection declares**: each variable that occurs, with the sort it occurs with ... -/
theorem find?_of_declareAll : ∀ {l : List (String × ValueSort)} {vars vars' : Declarations},
    vars.declareAll l = .ok vars' → ∀ p ∈ l, vars'.find? p.1 = some p.2
  | [], _, _, _, _, hp => absurd hp (by simp)
  | q :: rest, _, _, h, p, hp => by
    obtain ⟨mid, hmid, hrest⟩ := bind_eq_ok.mp h
    rcases List.mem_cons.mp hp with rfl | hp
    · exact keep_of_declareAll hrest (by rw [find?_of_declare hmid, if_pos rfl])
    · exact find?_of_declareAll hrest p hp

/-- ... and nothing besides but what was there before. -/
theorem mem_of_declareAll : ∀ {l : List (String × ValueSort)} {vars vars' : Declarations}
    {name : String} {s : ValueSort}, vars.declareAll l = .ok vars' →
      vars'.find? name = some s → vars.find? name = some s ∨ (name, s) ∈ l
  | [], _, _, _, _, h, hs => by
    obtain rfl := Except.ok.inj h
    exact Or.inl hs
  | p :: rest, _, _, _, _, h, hs => by
    obtain ⟨mid, hmid, hrest⟩ := bind_eq_ok.mp h
    rcases mem_of_declareAll hrest hs with hs | hs
    · rcases mem_of_declare hmid hs with hs | hs
      · exact Or.inl hs
      · exact Or.inr (List.mem_cons.mpr (Or.inl hs))
    · exact Or.inr (List.mem_cons_of_mem _ hs)

/-- The name stands for the sort: it is declared so, or is used so. -/
def Holds (vars : Declarations) (used : String → ValueSort → Prop) (name : String)
    (s : ValueSort) : Prop :=
  vars.find? name = some s ∨ used name s

theorem holds_empty {used : String → ValueSort → Prop} {name : String} {s : ValueSort} :
    Holds .empty used name s ↔ used name s := by
  simp [Holds]

theorem find?_of_declareAll_iff {l : List (String × ValueSort)}
    (h : vars.declareAll l = .ok vars') (name : String) (s : ValueSort) :
    vars'.find? name = some s ↔ vars.Holds (fun n t => (n, t) ∈ l) name s := by
  constructor
  · exact mem_of_declareAll h
  · rintro (hdeclared | hused)
    · exact keep_of_declareAll h hdeclared
    · exact find?_of_declareAll h (name, s) hused

/-- A collection from nothing declares exactly what occurs. -/
theorem declareAll_empty {l : List (String × ValueSort)} {name : String} {s : ValueSort}
    (h : Declarations.declareAll .empty l = .ok vars) :
    vars.find? name = some s ↔ (name, s) ∈ l :=
  (find?_of_declareAll_iff h name s).trans holds_empty

theorem contains_of_find? {name : String} {s : ValueSort} (h : vars.find? name = some s) :
    vars.contains name = true := by
  rw [Bindings.contains, h]
  rfl

/-! ## Which collections succeed -/

/-- No name occurs with two sorts. -/
def OneSorted (l : List (String × ValueSort)) : Prop :=
  ∀ p ∈ l, ∀ q ∈ l, p.1 = q.1 → p.2 = q.2

instance (l : List (String × ValueSort)) : Decidable (OneSorted l) :=
  inferInstanceAs (Decidable (∀ p ∈ l, ∀ q ∈ l, p.1 = q.1 → p.2 = q.2))

theorem OneSorted.mono {l sub : List (String × ValueSort)} (h : OneSorted l) (hsub : sub ⊆ l) :
    OneSorted sub := fun p hp q hq => h p (hsub hp) q (hsub hq)

/-- A declaration is refused for the sort that the name has already. -/
theorem declare_eq_error {name : String} {s : ValueSort} {fault : SortFault}
    (h : vars.declare name s = .error fault) :
    ∃ t, fault = .clash name t s ∧ t ≠ s ∧ vars.find? name = some t := by
  unfold declare at h
  split at h
  · exact absurd h (by simp)
  · next t hsome =>
    split at h
    · exact absurd h (by simp)
    · next hne => exact ⟨t, (Except.error.inj h).symm, hne, hsome⟩

/-- **A collection is refused for a name with two sorts**, and the fault names them. -/
theorem declareAll_eq_error {l : List (String × ValueSort)} {fault : SortFault}
    (h : vars.declareAll l = .error fault) :
    ∃ name s t, fault = .clash name s t ∧ s ≠ t ∧
      vars.Holds (fun n u => (n, u) ∈ l) name s ∧ vars.Holds (fun n u => (n, u) ∈ l) name t := by
  induction l generalizing vars with
  | nil => exact absurd h (by simp [declareAll])
  | cons p rest ih =>
    rw [declareAll] at h
    cases hmid : vars.declare p.1 p.2 with
    | error e =>
      obtain rfl : e = fault := by simpa [hmid, bind, Except.bind] using h
      obtain ⟨t, rfl, hne, ht⟩ := declare_eq_error hmid
      exact ⟨p.1, t, p.2, rfl, hne, .inl ht, .inr (List.mem_cons_self ..)⟩
    | ok mid =>
      have hrest : mid.declareAll rest = .error fault := by simpa [hmid, bind, Except.bind] using h
      obtain ⟨name, s, t, rfl, hne, hs, ht⟩ := ih hrest
      -- what holds after the first declaration holds before it, with the first occurrence
      have hback {u : ValueSort} (hu : mid.Holds (fun n u => (n, u) ∈ rest) name u) :
          vars.Holds (fun n u => (n, u) ∈ p :: rest) name u := by
        rcases hu with hu | hu
        · rcases mem_of_declare hmid hu with hu | hu
          · exact .inl hu
          · exact .inr (List.mem_cons.mpr (.inl hu))
        · exact .inr (List.mem_cons_of_mem p hu)
      exact ⟨name, s, t, rfl, hne, hback hs, hback ht⟩

/-- **Which collections succeed**, from any declarations: those that leave every name one sort. -/
theorem exists_declareAll_iff {l : List (String × ValueSort)} :
    (∃ vars', vars.declareAll l = .ok vars') ↔ ∀ name s t,
      vars.Holds (fun n u => (n, u) ∈ l) name s →
        vars.Holds (fun n u => (n, u) ∈ l) name t → s = t := by
  constructor
  · rintro ⟨vars', h⟩ name s t hs ht
    have hs := (find?_of_declareAll_iff h name s).mpr hs
    have ht := (find?_of_declareAll_iff h name t).mpr ht
    exact Option.some.inj (hs.symm.trans ht)
  · intro hone
    cases h : vars.declareAll l with
    | ok vars' => exact ⟨vars', rfl⟩
    | error fault =>
      obtain ⟨name, s, t, -, hne, hs, ht⟩ := declareAll_eq_error h
      exact absurd (hone name s t hs ht) hne

/-- **What a collection declares**: what was declared before and what occurs, and nothing else. -/
theorem declareAll_eq_ok_iff {l : List (String × ValueSort)} :
    vars.declareAll l = .ok vars' ↔
      ∀ name s, vars'.find? name = some s ↔ vars.Holds (fun n u => (n, u) ∈ l) name s := by
  refine ⟨find?_of_declareAll_iff, fun hexact => ?_⟩
  obtain ⟨vars'', h⟩ := exists_declareAll_iff.mpr fun name s t hs ht =>
    Option.some.inj (((hexact name s).mpr hs).symm.trans ((hexact name t).mpr ht))
  have heq : vars'' = vars' := by
    refine Bindings.ext_find? fun name => Option.ext fun s => ?_
    rw [find?_of_declareAll_iff h, hexact]
  rw [h, heq]

/-- From nothing, those in which no name occurs with two sorts. -/
theorem exists_declareAll_empty_iff {l : List (String × ValueSort)} :
    (∃ vars, declareAll .empty l = .ok vars) ↔ OneSorted l := by
  rw [exists_declareAll_iff]
  simp only [holds_empty]
  constructor
  · intro h p hp q hq hname
    exact h p.1 p.2 q.2 hp (hname ▸ hq)
  · intro h name s t hs ht
    exact h (name, s) hs (name, t) ht rfl

/-- Collections of the same occurrences, in any order and number, declare the same. -/
theorem declareAll_empty_congr {l l' : List (String × ValueSort)}
    (h : declareAll .empty l = .ok vars) (h' : declareAll .empty l' = .ok vars')
    (hsame : ∀ p, p ∈ l ↔ p ∈ l') : vars = vars' := by
  refine Bindings.ext_find? fun name => Option.ext fun s => ?_
  rw [declareAll_empty h, declareAll_empty h', hsame]

/-- Some of the occurrences are collected where all of them are, and declare no more. -/
theorem exists_declareAll_of_subset {l sub : List (String × ValueSort)}
    (h : declareAll .empty l = .ok vars) (hsub : sub ⊆ l) :
    ∃ vars', declareAll .empty sub = .ok vars' ∧
      ∀ name s, vars'.find? name = some s → vars.find? name = some s := by
  have hl : OneSorted l := exists_declareAll_empty_iff.mp ⟨vars, h⟩
  obtain ⟨vars', hvars'⟩ := exists_declareAll_empty_iff.mpr (hl.mono hsub)
  refine ⟨vars', hvars', ?_⟩
  intro name s hs
  exact (declareAll_empty h).mpr (hsub ((declareAll_empty hvars').mp hs))

/-- Collecting one list after another is collecting both. -/
theorem declareAll_append (l r : List (String × ValueSort)) :
    vars.declareAll (l ++ r) = vars.declareAll l >>= fun mid => mid.declareAll r := by
  induction l generalizing vars with
  | nil => rfl
  | cons p rest ih =>
    rw [List.cons_append, declareAll, declareAll]
    cases vars.declare p.1 p.2 with
    | error e => rfl
    | ok mid => exact ih

end Declarations

end SinkReach
