/-
# What writing does to a tree of files

A file is written at the place its path leads to, where no directory stands.  Everything else in the
tree stays as it is, and so do the directories that paths are followed through; hence a path leads
to the same place afterwards (`FileTree.locate_put`), and what is read there is what was written
(`FileTree.read_append`).
-/
import SinkReach.Files.Tree

namespace SinkReach.FileTree

variable {t : FileTree} {path : String}

/-! ## 1. Places -/

theorem findIn_putIn (p q : List String) (e : Entry) (entries : List (List String × Entry)) :
    findIn p (putIn q e entries) = if q = p then some e else findIn p entries := by
  induction entries with
  | nil => rfl
  | cons entry rest ih =>
    obtain ⟨place, d⟩ := entry
    rw [putIn]
    split
    · next hplace =>
      subst hplace
      simp only [findIn]
      split <;> rfl
    · next hplace =>
      simp only [findIn, ih]
      split
      · next hp =>
        subst hp
        rw [if_neg (Ne.symm hplace)]
      · rfl

/-- The root is a directory, so what is not one is not the root. -/
theorem find?_put {q : List String} (hq : t.find? q ≠ some .dir) (p : List String) (e : Entry) :
    (t.put q e).find? p = if q = p then some e else t.find? p := by
  cases p with
  | nil =>
    have hroot : q ≠ [] := by
      rintro rfl
      exact hq rfl
    rw [if_neg hroot]
    rfl
  | cons name p => exact findIn_putIn (name :: p) q e t.entries

/-! ## 2. Paths -/

/-- **A path leads to the same place** after a file is written where no directory stands: a place
that a path is followed through is a directory, and is not the one that is written. -/
theorem walk_put {q : List String} (hq : t.find? q ≠ some .dir) (text : String)
    {result : List String × Bool} (ns : List String) :
    ∀ at', t.walk at' ns = .ok result → (t.put q (.file text)).walk at' ns = .ok result := by
  induction ns with
  | nil => exact fun _ h => h
  | cons name rest ih =>
    intro at' h
    simp only [walk] at h ⊢
    split at h
    · next hdot =>
      rw [if_pos hdot]
      exact ih _ h
    · next hdot =>
      rw [if_neg hdot]
      split at h
      · next hup =>
        rw [if_pos hup]
        exact ih _ h
      · next hup =>
        rw [if_neg hup]
        split at h
        · next hlast =>
          rw [if_pos hlast]
          exact h
        · next hlast =>
          rw [if_neg hlast]
          cases hfind : t.find? (at' ++ [name]) with
          | none => exact absurd (hfind ▸ h) nofun
          | some e =>
            cases e with
            | file s => exact absurd (hfind ▸ h) nofun
            | dir =>
              have hne : q ≠ at' ++ [name] := by
                rintro rfl
                exact hq hfind
              rw [hfind] at h
              rw [find?_put hq, if_neg hne, hfind]
              exact ih _ h

theorem locate_put {q : List String} (hq : t.find? q ≠ some .dir) (text : String)
    {result : List String × Bool} (h : t.locate path = .ok result) :
    (t.put q (.file text)).locate path = .ok result := by
  unfold locate at h ⊢
  split at h
  · exact absurd h nofun
  · next hpath =>
    rw [if_neg hpath]
    exact walk_put hq text _ _ h

/-! ## 3. Files -/

theorem read_eq_ok {text : String} :
    t.read path = .ok text
      ↔ ∃ place, t.locate path = .ok (place, false) ∧ t.find? place = some (.file text) := by
  unfold read lookUp
  cases hlocate : t.locate path with
  | error e => simp [bind, Except.bind]
  | ok found =>
    obtain ⟨place, asDir⟩ := found
    cases hfind : t.find? place with
    | none => simp [bind, Except.bind, hfind]
    | some e =>
      cases e with
      | dir => simp [bind, Except.bind, hfind]
      | file s => cases asDir <;> simp [bind, Except.bind, hfind]

/-- A file can be opened when it is there, or when nothing is. -/
theorem openFile_eq_ok {place : List String} {text : String} :
    t.openFile path = .ok (place, text) ↔ t.locate path = .ok (place, false) ∧
      (t.find? place = some (.file text) ∨ t.find? place = none ∧ text = "") := by
  unfold openFile
  cases hlocate : t.locate path with
  | error e => simp [bind, Except.bind]
  | ok found =>
    obtain ⟨p, asDir⟩ := found
    simp only [bind, Except.bind, Except.ok.injEq, Prod.mk.injEq]
    constructor
    · intro h
      cases hfind : t.find? p with
      | none =>
        rw [hfind] at h
        cases asDir with
        | true => exact absurd h nofun
        | false =>
          obtain ⟨rfl, rfl⟩ := Prod.mk.inj (Except.ok.inj h)
          exact ⟨⟨rfl, rfl⟩, .inr ⟨hfind, rfl⟩⟩
      | some e =>
        rw [hfind] at h
        cases e with
        | dir => exact absurd h nofun
        | file s =>
          cases asDir with
          | true => exact absurd h nofun
          | false =>
            obtain ⟨rfl, rfl⟩ := Prod.mk.inj (Except.ok.inj h)
            exact ⟨⟨rfl, rfl⟩, .inl hfind⟩
    · rintro ⟨⟨rfl, rfl⟩, hfile | ⟨hnone, rfl⟩⟩
      · rw [hfile]
        rfl
      · rw [hnone]
        rfl

theorem openFile_of_read {text : String} (h : t.read path = .ok text) :
    ∃ place, t.openFile path = .ok (place, text) := by
  obtain ⟨place, hlocate, hfind⟩ := read_eq_ok.mp h
  exact ⟨place, openFile_eq_ok.mpr ⟨hlocate, .inl hfind⟩⟩

theorem exists?_of_read {text : String} (h : t.read path = .ok text) : t.exists? path = true := by
  unfold read at h
  unfold exists?
  cases hlook : t.lookUp path with
  | error e => exact absurd (hlook ▸ h) nofun
  | ok e => rfl

/-- A file that does not exist is opened without text. -/
theorem openFile_of_not_exists {place : List String} {text : String}
    (hnew : t.exists? path = false) (h : t.openFile path = .ok (place, text)) : text = "" := by
  obtain ⟨hlocate, hfile | ⟨-, htext⟩⟩ := openFile_eq_ok.mp h
  · have hread := exists?_of_read (read_eq_ok.mpr ⟨place, hlocate, hfile⟩)
    exact absurd hread (hnew ▸ Bool.false_ne_true)
  · exact htext

/-- **What is added to a file is read after what it had.** -/
theorem read_append {place : List String} {old : String}
    (h : t.openFile path = .ok (place, old)) (text : String) :
    ∃ t', t.append path text = .ok t' ∧ t'.read path = .ok (old ++ text) := by
  refine ⟨t.put place (.file (old ++ text)), by rw [append, h]; rfl, ?_⟩
  obtain ⟨hlocate, hfile⟩ := openFile_eq_ok.mp h
  have hdir : t.find? place ≠ some .dir := by
    rcases hfile with hfile | ⟨hfile, -⟩ <;> rw [hfile] <;> nofun
  refine read_eq_ok.mpr ⟨place, locate_put hdir _ hlocate, ?_⟩
  rw [find?_put hdir, if_pos rfl]

end SinkReach.FileTree
