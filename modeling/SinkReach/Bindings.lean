/-
# Bindings: finite maps from names

Variables are declared with sorts and assigned constants through finite maps from names.  A
map is the list of its pairs with strictly increasing names, names being ordered by code
point, so two maps that bind the same names to the same things are EQUAL (`Bindings.ext_find?`)
and a map is always written out in one order.

`find?_insert` and `find?_empty` say what looking up gives; nothing else needs the list.
-/

namespace SinkReach

/-- The list's names increase strictly. -/
def Increasing {α : Type} (l : List (String × α)) : Prop :=
  l.Pairwise fun a b => a.1 < b.1

/-- A finite map from names. -/
structure Bindings (α : Type) where
  /-- The pairs, by increasing name. -/
  entries : List (String × α)
  /-- No name stands twice, and the order is the order of the names. -/
  increasing : Increasing entries

namespace Bindings

variable {α : Type}

/-! ## 1. Pairs in increasing lists -/

/-- Puts a pair into its place, over a pair of the same name if there is one. -/
def insertEntry (name : String) (x : α) : List (String × α) → List (String × α)
  | [] => [(name, x)]
  | (m, y) :: rest =>
    if name < m then (name, x) :: (m, y) :: rest
    else if name = m then (name, x) :: rest
    else (m, y) :: insertEntry name x rest

/-- What a name stands with in a list of pairs. -/
def findEntry (name : String) : List (String × α) → Option α
  | [] => none
  | (m, y) :: rest => if name = m then some y else findEntry name rest

/-- Putting a pair in adds no name but its own. -/
theorem mem_insertEntry {name : String} {x : α} : ∀ {l : List (String × α)} {p : String × α},
    p ∈ insertEntry name x l → p.1 = name ∨ p ∈ l
  | [], p, h => by simp [insertEntry] at h; simp [h]
  | (m, y) :: rest, p, h => by
    rw [insertEntry] at h
    split at h
    · simp only [List.mem_cons] at h ⊢
      rcases h with h | h
      · simp [h]
      · exact Or.inr h
    · split at h
      · simp only [List.mem_cons] at h ⊢
        rcases h with h | h
        · simp [h]
        · exact Or.inr (Or.inr h)
      · simp only [List.mem_cons] at h ⊢
        rcases h with h | h
        · exact Or.inr (Or.inl h)
        · rcases mem_insertEntry h with h | h
          · exact Or.inl h
          · exact Or.inr (Or.inr h)

/-- Of two names, neither of which is below the other, both are the same. -/
theorem lt_of_not_lt_of_ne {a b : String} (h : ¬ a < b) (hne : a ≠ b) : b < a := by
  by_cases hba : b < a
  · exact hba
  · exact absurd (String.le_antisymm (String.not_lt.1 hba) (String.not_lt.1 h)) hne

/-- Putting a pair in keeps the names increasing. -/
theorem increasing_insertEntry {name : String} {x : α} : ∀ {l : List (String × α)},
    Increasing l → Increasing (insertEntry name x l)
  | [], _ => by simp [insertEntry, Increasing]
  | (m, y) :: rest, h => by
    have hrest : ∀ p ∈ rest, m < p.1 := (List.pairwise_cons.1 h).1
    have htail : Increasing rest := (List.pairwise_cons.1 h).2
    rw [insertEntry]
    split
    · next hlt =>
      refine List.pairwise_cons.2 ⟨?_, h⟩
      intro p hp
      rcases List.mem_cons.1 hp with rfl | hp
      · exact hlt
      · exact String.lt_trans hlt (hrest p hp)
    · next hge =>
      split
      · next heq =>
        exact List.pairwise_cons.2 ⟨fun p hp => heq ▸ hrest p hp, htail⟩
      · next hne =>
        refine List.pairwise_cons.2 ⟨?_, increasing_insertEntry htail⟩
        intro p hp
        rcases mem_insertEntry hp with hn | hp
        · exact hn ▸ lt_of_not_lt_of_ne hge hne
        · exact hrest p hp

theorem findEntry_insertEntry (name other : String) (x : α) : ∀ l : List (String × α),
    findEntry other (insertEntry name x l)
      = if other = name then some x else findEntry other l
  | [] => by simp [insertEntry, findEntry]
  | (m, y) :: rest => by
    have ih := findEntry_insertEntry name other x rest
    rw [insertEntry]
    split
    · simp [findEntry]
    · split
      · next heq => subst heq; by_cases h : other = name <;> simp [findEntry, h]
      · next hne =>
        by_cases h : other = m
        · subst h
          have : ¬ other = name := fun h => hne h.symm
          simp [findEntry, this]
        · simp [findEntry, h, ih]

/-- A name below all names of a list is not among them. -/
theorem findEntry_of_forall_lt {name : String} : ∀ {l : List (String × α)},
    (∀ p ∈ l, name < p.1) → findEntry name l = none
  | [], _ => rfl
  | (m, y) :: rest, h => by
    have hm : name ≠ m := fun he => String.lt_irrefl m (he ▸ h (m, y) (List.mem_cons_self ..))
    have ih := findEntry_of_forall_lt fun p hp => h p (List.mem_cons_of_mem _ hp)
    simp [findEntry, hm, ih]

/-- The names of an increasing list are not below its first. -/
theorem findEntry_of_lt_head {name m : String} {y : α} {rest : List (String × α)}
    (h : Increasing ((m, y) :: rest)) (hlt : name < m) :
    findEntry name ((m, y) :: rest) = none := by
  refine findEntry_of_forall_lt fun p hp => ?_
  rcases List.mem_cons.1 hp with rfl | hp
  · exact hlt
  · exact String.lt_trans hlt ((List.pairwise_cons.1 h).1 p hp)

/-- Increasing lists in which every name is bound to the same thing are the same. -/
theorem eq_of_findEntry_eq : ∀ {l r : List (String × α)}, Increasing l → Increasing r →
    (∀ name, findEntry name l = findEntry name r) → l = r
  | [], [], _, _, _ => rfl
  | [], (m, y) :: rest, _, _, h => by
    have := h m
    simp [findEntry] at this
  | (m, x) :: rest, [], _, _, h => by
    have := h m
    simp [findEntry] at this
  | (m, x) :: l, (k, y) :: r, hl, hr, h => by
    have hmk : m = k := by
      by_cases hne : m = k
      · exact hne
      · exfalso
        by_cases hlt : m < k
        · have := h m
          rw [findEntry_of_lt_head hr hlt] at this
          simp [findEntry] at this
        · have := h k
          rw [findEntry_of_lt_head hl (lt_of_not_lt_of_ne hlt hne)] at this
          simp [findEntry] at this
    subst hmk
    have hxy : x = y := by
      have := h m
      simpa [findEntry] using this
    have htail : ∀ name, findEntry name l = findEntry name r := by
      intro name
      by_cases hn : name = m
      · rw [hn, findEntry_of_forall_lt (List.pairwise_cons.1 hl).1,
          findEntry_of_forall_lt (List.pairwise_cons.1 hr).1]
      · have := h name
        simpa [findEntry, hn] using this
    rw [hxy, eq_of_findEntry_eq (List.pairwise_cons.1 hl).2 (List.pairwise_cons.1 hr).2 htail]

/-! ## 2. The map -/

/-- The map that binds nothing. -/
def empty : Bindings α := ⟨[], List.Pairwise.nil⟩

instance : EmptyCollection (Bindings α) := ⟨empty⟩

/-- What a name is bound to. -/
def find? (b : Bindings α) (name : String) : Option α := findEntry name b.entries

/-- Binds a name, anew if it was bound. -/
def insert (b : Bindings α) (name : String) (x : α) : Bindings α :=
  ⟨insertEntry name x b.entries, increasing_insertEntry b.increasing⟩

/-- The bindings of a list of pairs; of two pairs with one name the later one counts. -/
def ofList (l : List (String × α)) : Bindings α :=
  l.foldl (fun b p => b.insert p.1 p.2) empty

/-- Whether a name is bound. -/
def contains (b : Bindings α) (name : String) : Bool := (b.find? name).isSome

/-- Whether nothing is bound. -/
def isEmpty (b : Bindings α) : Bool := b.entries.isEmpty

/-- The bindings whose names satisfy a test. -/
def filterNames (b : Bindings α) (p : String → Bool) : Bindings α :=
  ⟨b.entries.filter fun e => p e.1, b.increasing.filter _⟩

@[simp] theorem find?_empty (name : String) : (empty : Bindings α).find? name = none := rfl

@[simp] theorem find?_insert (b : Bindings α) (name other : String) (x : α) :
    (b.insert name x).find? other = if other = name then some x else b.find? other :=
  findEntry_insertEntry name other x b.entries

/-- Maps that bind the same names to the same things are equal. -/
theorem ext_find? {a b : Bindings α} (h : ∀ name, a.find? name = b.find? name) : a = b := by
  cases a with
  | mk l hl =>
    cases b with
    | mk r hr =>
      have hlr : l = r := eq_of_findEntry_eq hl hr h
      subst hlr
      rfl

instance [DecidableEq α] : DecidableEq (Bindings α) := fun a b =>
  decidable_of_iff (a.entries = b.entries) (by cases a; cases b; simp)

end Bindings

end SinkReach
