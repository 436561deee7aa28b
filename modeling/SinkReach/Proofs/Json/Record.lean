/-
# Records and words are read back

What `Json/Record.lean` reads of a record that was written with all of its fields, and of a word.
Words are small enough for the doubles, so their text says what they are (`Json.isExact`).
-/
import SinkReach.Json.Record
import SinkReach.Proofs.Json.Text

namespace SinkReach

/-- A list is read item by item. -/
theorem mapM_eq_some_of_forall {α β : Type} {f : α → Option β} {g : α → β} {l : List α}
    (h : ∀ a ∈ l, f a = some (g a)) : l.mapM f = some (l.map g) := by
  induction l with
  | nil => rfl
  | cons a l ih =>
    obtain ⟨ha, hl⟩ := List.forall_mem_cons.mp h
    rw [List.mapM_cons, ha, ih hl]
    rfl

/-- A list whose items are read back is read back. -/
theorem mapM_map_eq_some {α β : Type} {write : α → β} {read? : β → Option α}
    (h : ∀ a, read? (write a) = some a) (l : List α) : (l.map write).mapM read? = some l := by
  have hread := mapM_eq_some_of_forall (f := read? ∘ write) (g := id) (l := l) fun a _ => h a
  rw [List.mapM_map, hread, List.map_id]

namespace Json

/-! ## 1. Records -/

theorem field?_of_mem {fields : List (String × Json)} (hnames : (fields.map Prod.fst).Nodup)
    {name : String} {v : Json} (h : (name, v) ∈ fields) : field? name fields = some (some v) := by
  have hfilter : fields.filter (fun f => f.1 = name) = [(name, v)] := by
    induction fields with
    | nil => exact absurd h List.not_mem_nil
    | cons f fields ih =>
      rw [List.map_cons, List.nodup_cons] at hnames
      rcases List.mem_cons.mp h with rfl | h
      · have hrest : fields.filter (fun f => f.1 = name) = [] := by
          rw [List.filter_eq_nil_iff]
          intro g hg hname
          exact hnames.1 (List.mem_map.mpr ⟨g, hg, of_decide_eq_true hname⟩)
        rw [List.filter_cons_of_pos (by simp), hrest]
      · have hne : f.1 ≠ name := by
          rintro rfl
          exact hnames.1 (List.mem_map.mpr ⟨_, h, rfl⟩)
        rw [List.filter_cons_of_neg (by simpa using hne), ih hnames.2 h]
  rw [field?, hfilter]

/-- **A record that was written with all its fields is read back.** -/
theorem record?_obj {names : List String} {fields : List (String × Json)}
    (hfields : fields.map Prod.fst = names) (hnames : names.Nodup) :
    record? names (.obj fields) = some (fields.map fun f => some f.2) := by
  subst hfields
  rw [record?, List.mapM_map]
  apply mapM_eq_some_of_forall
  intro f hf
  exact field?_of_mem hnames hf

/-! ## 2. Words -/

theorem name?_str (name : String) : name? (.str name) = some name := rfl

theorem int64?_toInt (n : Int64) : int64? (.int n.toInt) = some n := by
  have hlower : -0x8000000000000000 ≤ n.toInt := n.le_toInt
  have hupper : n.toInt < 0x8000000000000000 := n.toInt_lt
  rw [int64?, if_pos ⟨hlower, hupper⟩, Int64.ofInt_toInt]

theorem uint64?_ofUInt64 (n : UInt64) : uint64? (ofUInt64 n) = some n := by
  have hupper : n.toNat < 0x10000000000000000 := n.toNat_lt
  rw [ofUInt64, uint64?, if_pos (by omega), Int.toNat_natCast, UInt64.ofNat_toNat]

theorem uint32?_ofUInt32 (n : UInt32) : uint32? (ofUInt32 n) = some n := by
  have hupper : n.toNat < 0x100000000 := n.toNat_lt
  rw [ofUInt32, uint32?, if_pos (by omega), Int.toNat_natCast, UInt32.ofNat_toNat]

theorem isExact_int {n : Int} (h : n.natAbs < 0x10000000000000000) :
    (Json.int n).isExact = true := by
  have hbound : 0x10000000000000000 ≤ Text.doubleBound := by decide +kernel
  exact decide_eq_true (Nat.lt_of_lt_of_le h hbound)

theorem isExact_toInt (n : Int64) : (Json.int n.toInt).isExact = true := by
  have hlower : -0x8000000000000000 ≤ n.toInt := n.le_toInt
  have hupper : n.toInt < 0x8000000000000000 := n.toInt_lt
  exact isExact_int (by omega)

theorem isExact_ofUInt64 (n : UInt64) : (ofUInt64 n).isExact = true := by
  have hupper : n.toNat < 0x10000000000000000 := n.toNat_lt
  exact isExact_int (by omega)

theorem isExact_ofUInt32 (n : UInt32) : (ofUInt32 n).isExact = true := by
  have hupper : n.toNat < 0x100000000 := n.toNat_lt
  exact isExact_int (by omega)

end Json

end SinkReach
