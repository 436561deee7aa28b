/-
# JSON text can be read back

`Json.read?` reads what `Json.write` writes.  Two things can be lost on the way.  A number that is
no integer, or is beyond the doubles, is not read as it was; `Json.isExact` says that there is none.
And a collection is not read at all if too many brackets are open around it.  This is no failure of
the whole document: what is read is the value with such collections CUT off
(`Json.read?_write_eq_cut`), which is the value itself if it is not nested too deep
(`Json.read?_write`).

Each part of the text is read by a lemma of its own that says what it leaves to read: a character, a
string, a numeral, and by induction a value with the items or fields in it.  Two invariants carry
the induction.  What follows a value is nothing, a comma or a line break, so a numeral ends where it
should (`Reader.Follows`); and the fuel is twice the number of characters to be read.
-/
import SinkReach.Json.Reader
import SinkReach.Json.Writer
import SinkReach.Proofs.Numeral

namespace SinkReach.Json

namespace Reader

/-! ## 1. Blanks -/

@[simp] theorem skip_cons (c : Char) (cs : List Char) :
    skip (c :: cs) = if isSeparator c then skip cs else c :: cs :=
  List.dropWhile_cons

theorem toList_newline (level : Nat) :
    (newline level).toList = '\n' :: List.replicate (2 * level) ' ' := by
  simp [newline]

theorem skip_newline (level : Nat) (cs : List Char) :
    skip ((newline level).toList ++ cs) = skip cs := by
  have hblanks : ∀ n, skip (List.replicate n ' ' ++ cs) = skip cs := by
    intro n
    induction n with
    | zero => rfl
    | succ n ih => exact ih
  rw [toList_newline]
  exact hblanks (2 * level)

/-! ## 2. Strings -/

/-- What an escape stands for. -/
def escaped? : List Char → Option Nat
  | [slash, letter] => if slash = '\\' then escape? letter else none
  | [slash, letter, a, b, c, d] =>
    if slash = '\\' ∧ letter = 'u' then unit? a b c d else none
  | _ => none

/-- The two forms of an escape. -/
theorem escaped?_eq_some {cs : List Char} {n : Nat} (h : escaped? cs = some n) :
    (∃ letter, cs = ['\\', letter] ∧ escape? letter = some n) ∨
      ∃ a b c d, cs = ['\\', 'u', a, b, c, d] ∧ unit? a b c d = some n := by
  unfold escaped? at h
  split at h
  · next slash letter =>
    split at h
    · next hslash => exact .inl ⟨letter, by rw [hslash], h⟩
    · exact absurd h nofun
  · next slash letter a b c d =>
    split at h
    · next hform => exact .inr ⟨a, b, c, d, by rw [hform.1, hform.2], h⟩
    · exact absurd h nofun
  · exact absurd h nofun

theorem units?_escaped {cs : List Char} {n : Nat} (h : escaped? cs = some n) (done : List Nat)
    (rest : List Char) : units? done (cs ++ rest) = units? (n :: done) rest := by
  rcases escaped?_eq_some h with ⟨letter, rfl, hletter⟩ | ⟨a, b, c, d, rfl, hunit⟩
  · have hu : letter ≠ 'u' := by
      rintro rfl
      exact absurd hletter nofun
    rw [List.cons_append, List.singleton_append, units?, hletter]
    exact fun _ _ _ _ _ hc => absurd hc hu
  · simp only [List.cons_append, List.nil_append, units?, hunit]

/-- **A character is written as it is or as an escape of it.** -/
theorem writeChar_cases (c : Char) :
    escaped? (writeChar c) = some c.toNat ∨
      (writeChar c = [c] ∧ c ≠ '"' ∧ c ≠ '\\' ∧ ¬c.toNat < 0x20) := by
  by_cases hcontrol : c.toNat < 0x20
  · have hall : ∀ n : Fin 0x20, escaped? (writeChar (Char.ofNat n)) = some n.val := by decide
    have h := hall ⟨c.toNat, hcontrol⟩
    rw [Char.ofNat_toNat] at h
    exact .inl h
  by_cases hquote : c = '"'
  · exact .inl (hquote ▸ rfl)
  by_cases hslash : c = '\\'
  · exact .inl (hslash ▸ rfl)
  refine .inr ⟨?_, hquote, hslash, hcontrol⟩
  unfold writeChar
  -- The other characters with a letter of their own are controls.
  split
  all_goals first
    | exact absurd rfl ‹_›
    | exact absurd (by decide) hcontrol
    | exact if_neg hcontrol

theorem units?_writeChar (c : Char) (done : List Nat) (rest : List Char) :
    units? done (writeChar c ++ rest) = units? (c.toNat :: done) rest := by
  rcases writeChar_cases c with hescaped | ⟨hplain, hquote, hslash, hcontrol⟩
  · exact units?_escaped hescaped done rest
  · rw [hplain, List.singleton_append, units?, if_neg hcontrol]
    · exact hquote
    · exact fun _ _ _ _ _ hc => absurd hc hslash
    · exact fun _ _ hc => absurd hc hslash

theorem units?_flatMap_writeChar (cs : List Char) :
    ∀ (done : List Nat) (rest : List Char),
      units? done (cs.flatMap writeChar ++ '"' :: rest)
        = some (done.reverse ++ cs.map Char.toNat, rest) := by
  induction cs with
  | nil => intro done rest; simp [units?]
  | cons c cs ih =>
    intro done rest
    rw [List.flatMap_cons, List.append_assoc, units?_writeChar, ih]
    simp

/-- No character is half of a surrogate pair. -/
theorem joinSurrogates?_map_toNat (cs : List Char) :
    ∀ done, joinSurrogates? done (cs.map Char.toNat) = some (done.reverse ++ cs) := by
  induction cs with
  | nil => intro done; simp [joinSurrogates?]
  | cons c cs ih =>
    intro done
    have hvalid : c.toNat < 0xd800 ∨ 0xdfff < c.toNat ∧ c.toNat < 0x110000 := c.valid
    rw [List.map_cons, joinSurrogates?.eq_def]
    dsimp only
    rw [if_neg (by omega), if_neg (by omega), Char.ofNat_toNat, ih]
    simp

/-- **A string is read back**, whatever its characters. -/
theorem string?_writeString (s : String) (rest : List Char) :
    string? (s.toList.flatMap writeChar ++ '"' :: rest) = some (some s, rest) := by
  simp [string?, units?_flatMap_writeChar, joinSurrogates?_map_toNat]

/-! ## 3. Numbers -/

/-- What follows a value in a document. -/
def Follows (rest : List Char) : Prop := ∀ c cs, rest = c :: cs → c = ',' ∨ c = '\n'

open Text

theorem digits_append {ds rest : List Char} (hds : ∀ d ∈ ds, d.isDigit = true)
    (hrest : Follows rest) : digits (ds ++ rest) = (ds, rest) := by
  have htake : rest.takeWhile Char.isDigit = [] := by
    cases rest with
    | nil => rfl
    | cons c cs => rcases hrest c cs rfl with rfl | rfl <;> rfl
  have hdrop : rest.dropWhile Char.isDigit = rest := by
    cases rest with
    | nil => rfl
    | cons c cs => rcases hrest c cs rfl with rfl | rfl <;> rfl
  rw [digits, List.takeWhile_append_of_pos hds, List.dropWhile_append_of_pos hds, htake, hdrop,
    List.append_nil]

theorem fraction?_of_follows {rest : List Char} (h : Follows rest) :
    fraction? rest = some ([], rest) := by
  cases rest with
  | nil => rfl
  | cons c cs => rcases h c cs rfl with rfl | rfl <;> rfl

theorem exponent?_of_follows {rest : List Char} (h : Follows rest) :
    exponent? rest = some (none, rest) := by
  cases rest with
  | nil => rfl
  | cons c cs => rcases h c cs rfl with rfl | rfl <;> rfl

theorem inDoubleRange_of_lt {n : Nat} (h : n < doubleBound) (width : Nat) :
    inDoubleRange n 0 width = true := by
  unfold inDoubleRange
  split
  · rfl
  · rw [if_pos (Int.le_refl 0)]
    split
    · rfl
    · simpa using h

theorem not_separator_of_isDigit {c : Char} (hc : c = '-' ∨ c.isDigit = true) :
    isSeparator c = false := by
  have hblank : c ≠ ' ' := ne_of_isDigit hc (by decide)
  have htab : c ≠ '\t' := ne_of_isDigit hc (by decide)
  have hfeed : c ≠ '\n' := ne_of_isDigit hc (by decide)
  have hreturn : c ≠ '\r' := ne_of_isDigit hc (by decide)
  simp [isSeparator, hblank, htab, hfeed, hreturn]

/-- The text of an integer starts with a sign or a digit. -/
theorem exists_toString_eq_cons (n : Int) :
    ∃ c cs, (toString n).toList = c :: cs ∧ (c = '-' ∨ c.isDigit = true) := by
  have hne : (toString n).toList ≠ [] := by
    rw [toList_toString_int]
    exact List.append_ne_nil_of_right_ne_nil _ Nat.toDigits_ne_nil
  obtain ⟨c, cs, hcs⟩ := List.exists_cons_of_ne_nil hne
  exact ⟨c, cs, hcs, isDigit_of_mem_toString (hcs ▸ List.mem_cons_self)⟩

/-- **An integer is read back**, unless it is beyond the doubles. -/
theorem number?_toString {n : Int} (hn : n.natAbs < doubleBound) {rest : List Char}
    (hrest : Follows rest) : number? ((toString n).toList ++ rest) = some (.int n, rest) := by
  have hisDigit : ∀ d ∈ Nat.toDigits 10 n.natAbs, d.isDigit = true :=
    fun d => Nat.isDigit_of_mem_toDigits (by decide) (by decide)
  obtain ⟨d, ds, hds⟩ := exists_toDigits_eq_cons n.natAbs
  have hzero : ¬(d = '0' ∧ 0 < ds.length) := by
    rintro ⟨rfl, hlength⟩
    have habs : n.natAbs = 0 := eq_zero_of_head?_toDigits (by rw [hds]; rfl)
    rw [habs, Nat.toDigits_zero] at hds
    injection hds with _ hds
    rw [← hds] at hlength
    exact absurd hlength (by decide)
  have hminus : d ≠ '-' := by
    rintro rfl
    exact absurd (hisDigit '-' (hds ▸ List.mem_cons_self)) (by decide)
  have hvalue : ofDigits (d :: ds) = n.natAbs := hds ▸ ofDigits_toDigits n.natAbs
  have hdigits : digits (d :: (ds ++ rest)) = (d :: ds, rest) :=
    digits_append (hds ▸ hisDigit) hrest
  rw [toList_toString_int, hds]
  unfold number?
  split
  next negative body hsplit =>
  -- The sign, if there is one, has been taken off.
  have hbody : negative = decide (n < 0) ∧ body = d :: (ds ++ rest) := by
    by_cases hneg : n < 0
    · simpa [hneg, eq_comm] using hsplit
    · simpa [hneg, hminus, eq_comm] using hsplit
  obtain ⟨rfl, rfl⟩ := hbody
  rw [hdigits]
  dsimp only
  rw [if_neg (by simpa using hzero), fraction?_of_follows hrest, Option.bind_eq_bind,
    Option.bind_some]
  dsimp only
  rw [exponent?_of_follows hrest, Option.bind_eq_bind, Option.bind_some]
  dsimp only
  have hrange : inDoubleRange n.natAbs ((none : Option Int).getD 0 - ([] : List Char).length)
      ((d :: ds).length + ([] : List Char).length) = true := inDoubleRange_of_lt hn _
  have hint : (if decide (n < 0) = true then -(n.natAbs : Int) else n.natAbs) = n := by
    simp only [decide_eq_true_eq]
    split <;> omega
  rw [List.append_nil, hvalue, if_neg (by rw [hrange]; decide), hint,
    if_pos ⟨rfl, rfl, by simp only [decide_eq_true_eq]; omega⟩]
  rfl

end Reader

/-! ## 4. What a reader makes of a document -/

mutual

/-- Whether the text of a value says what it is: its numbers are integers that a double can hold,
and it has no part that cannot be held. -/
def isExact : Json → Bool
  | .int n => n.natAbs < Text.doubleBound
  | .real _ | .unreadable => false
  | .arr items => itemsExact items
  | .obj fields => fieldsExact fields
  | _ => true

/-- Whether every item is exact. -/
def itemsExact : List Json → Bool
  | [] => true
  | j :: js => j.isExact && itemsExact js

/-- Whether the value of every field is exact. -/
def fieldsExact : List (String × Json) → Bool
  | [] => true
  | (_, j) :: fs => j.isExact && fieldsExact fs

end

mutual

/-- The value in which collections that are nested too deep cannot be held. -/
def cut (limit : Nat) : Json → Json
  | .arr items => if limit = 0 then .unreadable else .arr (cutItems (limit - 1) items)
  | .obj fields => if limit = 0 then .unreadable else .obj (cutFields (limit - 1) fields)
  | j => j

/-- The items, each of them cut. -/
def cutItems (limit : Nat) : List Json → List Json
  | [] => []
  | j :: js => j.cut limit :: cutItems limit js

/-- The fields, each with its value cut. -/
def cutFields (limit : Nat) : List (String × Json) → List (String × Json)
  | [] => []
  | (k, j) :: fs => (k, j.cut limit) :: cutFields limit fs

end

mutual

/-- A value that is not nested too deep is left as it is. -/
theorem cut_of_depth_le (limit : Nat) (j : Json) (h : j.depth ≤ limit) : j.cut limit = j := by
  match j with
  | .arr items =>
    rw [depth] at h
    rw [cut, if_neg (by omega), cutItems_of_depth_le (limit - 1) items (by omega)]
  | .obj fields =>
    rw [depth] at h
    rw [cut, if_neg (by omega), cutFields_of_depth_le (limit - 1) fields (by omega)]
  | .null | .bool _ | .int _ | .real _ | .str _ | .unreadable => rfl

theorem cutItems_of_depth_le (limit : Nat) (js : List Json) (h : itemsDepth js ≤ limit) :
    cutItems limit js = js := by
  match js with
  | [] => rfl
  | j :: js =>
    rw [itemsDepth] at h
    rw [cutItems, cut_of_depth_le limit j (by omega), cutItems_of_depth_le limit js (by omega)]

theorem cutFields_of_depth_le (limit : Nat) (fs : List (String × Json))
    (h : fieldsDepth fs ≤ limit) : cutFields limit fs = fs := by
  match fs with
  | [] => rfl
  | (k, j) :: fs =>
    rw [fieldsDepth] at h
    rw [cutFields, cut_of_depth_le limit j (by omega), cutFields_of_depth_le limit fs (by omega)]

end

namespace Reader

/-! ## 5. Values -/

theorem value?_newline (fuel limit level : Nat) (cs : List Char) :
    value? fuel limit ((newline level).toList ++ cs) = value? fuel limit cs := by
  cases fuel with
  | zero => rfl
  | succ fuel => simp only [value?, skip_newline]

theorem toList_writeString (s : String) :
    (writeString s).toList = '"' :: (s.toList.flatMap writeChar ++ ['"']) :=
  String.toList_ofList

theorem toList_writeAt_arr (level : Nat) (j : Json) (js : List Json) :
    (writeAt level (.arr (j :: js))).toList = '[' :: ((newline (level + 1)).toList
      ++ ((j.writeAt (level + 1)).toList ++ ((writeItems (level + 1) js).toList
        ++ ((newline level).toList ++ [']'])))) := by
  simp [writeAt]

theorem toList_writeItems_cons (level : Nat) (j : Json) (js : List Json) :
    (writeItems level (j :: js)).toList = ',' :: ((newline level).toList
      ++ ((j.writeAt level).toList ++ (writeItems level js).toList)) := by
  simp [writeItems]

theorem toList_writeAt_obj (level : Nat) (k : String) (j : Json) (fs : List (String × Json)) :
    (writeAt level (.obj ((k, j) :: fs))).toList = '\x7b' :: ((newline (level + 1)).toList
      ++ ((writeString k).toList ++ (':' :: ' ' :: ((j.writeAt (level + 1)).toList
        ++ ((writeFields (level + 1) fs).toList ++ ((newline level).toList ++ ['\x7d'])))))) := by
  simp [writeAt]

theorem toList_writeFields_cons (level : Nat) (k : String) (j : Json) (fs : List (String × Json)) :
    (writeFields level ((k, j) :: fs)).toList = ',' :: ((newline level).toList
      ++ ((writeString k).toList ++ (':' :: ' ' :: ((j.writeAt level).toList
        ++ (writeFields level fs).toList)))) := by
  simp [writeFields]

theorem value?_blank (fuel limit : Nat) (cs : List Char) :
    value? fuel limit (' ' :: cs) = value? fuel limit cs := by
  have hskip : skip (' ' :: cs) = skip cs := rfl
  cases fuel with
  | zero => rfl
  | succ fuel => simp only [value?, hskip]

theorem fields?_newline (fuel limit level : Nat) (done : Option (List (String × Json)))
    (cs : List Char) :
    fields? fuel limit done ((newline level).toList ++ cs) = fields? fuel limit done cs := by
  cases fuel with
  | zero => rfl
  | succ fuel => simp only [fields?, skip_newline]

/-- The first character of a value is part of it, and does not close a list. -/
theorem exists_writeAt_eq_cons {j : Json} (hj : j.isExact = true) (level : Nat) :
    ∃ c cs, (j.writeAt level).toList = c :: cs ∧ isSeparator c = false ∧ c ≠ ']' := by
  match j with
  | .null => exact ⟨'n', _, String.toList_ofList, rfl, by decide⟩
  | .bool true => exact ⟨'t', _, String.toList_ofList, rfl, by decide⟩
  | .bool false => exact ⟨'f', _, String.toList_ofList, rfl, by decide⟩
  | .int n =>
    obtain ⟨c, cs, hcs, hc⟩ := exists_toString_eq_cons n
    exact ⟨c, cs, hcs, not_separator_of_isDigit hc, Text.ne_of_isDigit hc (by decide)⟩
  | .str s => exact ⟨'"', _, String.toList_ofList, rfl, by decide⟩
  | .arr [] => exact ⟨'[', _, String.toList_ofList, rfl, by decide⟩
  | .arr (j :: js) => exact ⟨'[', _, toList_writeAt_arr level j js, rfl, by decide⟩
  | .obj [] => exact ⟨'\x7b', _, String.toList_ofList, rfl, by decide⟩
  | .obj ((k, j) :: fs) => exact ⟨'\x7b', _, toList_writeAt_obj level k j fs, rfl, by decide⟩
  | .real _ | .unreadable => exact absurd hj Bool.false_ne_true

/-- A list that is not empty is read by its items. -/
theorem value?_arr {j : Json} (hj : j.isExact = true) {js items : List Json}
    {level fuel limit : Nat} {rest : List Char}
    (hitems : items? fuel (limit - 1) [] ((j.writeAt (level + 1)).toList
      ++ ((writeItems (level + 1) js).toList ++ ((newline level).toList ++ ']' :: rest)))
        = some (items, rest)) :
    value? (fuel + 1) limit ((writeAt level (.arr (j :: js))).toList ++ rest)
      = some (if limit = 0 then .unreadable else .arr items, rest) := by
  obtain ⟨c, cs, hcs, hc, hbracket⟩ := exists_writeAt_eq_cons hj (level + 1)
  rw [hcs, List.cons_append] at hitems
  have hopen : isSeparator '[' = false := rfl
  rw [toList_writeAt_arr, hcs]
  simp [value?, skip_newline, hopen, hc, hbracket, hitems]

/-- An object that is not empty is read by its fields. -/
theorem value?_obj {k : String} {j : Json} {fs fields : List (String × Json)}
    {level fuel limit : Nat} {rest : List Char}
    (hfields : fields? fuel (limit - 1) (some []) ((writeString k).toList
      ++ (':' :: ' ' :: ((j.writeAt (level + 1)).toList ++ ((writeFields (level + 1) fs).toList
        ++ ((newline level).toList ++ '\x7d' :: rest))))) = some (some fields, rest)) :
    value? (fuel + 1) limit ((writeAt level (.obj ((k, j) :: fs))).toList ++ rest)
      = some (if limit = 0 then .unreadable else .obj fields, rest) := by
  rw [toList_writeString, List.cons_append] at hfields
  rw [toList_writeAt_obj, toList_writeString]
  simp at hfields
  simp [value?, isSeparator, skip_newline, hfields]

theorem value?_number {fuel limit : Nat} {c : Char} {cs : List Char} (hc : c = '-' ∨ c.isDigit) :
    value? (fuel + 1) limit (c :: cs) = number? (c :: cs) := by
  have hskip : skip (c :: cs) = c :: cs := by simp [not_separator_of_isDigit hc]
  rw [value?, hskip]
  split
  all_goals first
    | rfl
    | next heq =>
      injection heq with heq
      subst heq
      exact absurd hc (by decide)

/-- A value that is no collection is read back. -/
theorem value?_scalar {j : Json} (hj : j.isExact = true) (hdepth : j.depth = 0)
    (level fuel limit : Nat) {rest : List Char} (hrest : Follows rest) :
    value? (fuel + 1) limit ((j.writeAt level).toList ++ rest) = some (j, rest) := by
  cases j with
  | null => simp [writeAt, value?, isSeparator]
  | bool b => cases b <;> simp [writeAt, value?, isSeparator]
  | int n =>
    have hn : n.natAbs < Text.doubleBound := of_decide_eq_true hj
    obtain ⟨c, cs, hcs, hc⟩ := exists_toString_eq_cons n
    have hnumber := number?_toString hn hrest
    rw [hcs, List.cons_append] at hnumber
    rw [writeAt, hcs, List.cons_append, value?_number hc, hnumber]
  | str s => simp [writeAt, toList_writeString, value?, isSeparator, string?_writeString]
  | arr items => exact absurd hdepth nofun
  | obj fields => exact absurd hdepth nofun
  | real _ => exact absurd hj Bool.false_ne_true
  | unreadable => exact absurd hj Bool.false_ne_true

theorem follows_writeItems (level outer : Nat) (js : List Json) (rest : List Char) :
    Follows ((writeItems level js).toList ++ ((newline outer).toList ++ rest)) := by
  intro c cs h
  cases js with
  | nil =>
    rw [writeItems, toList_newline] at h
    exact .inr (List.cons.inj h).1.symm
  | cons j js =>
    rw [toList_writeItems_cons] at h
    exact .inl (List.cons.inj h).1.symm

theorem follows_writeFields (level outer : Nat) (fs : List (String × Json)) (rest : List Char) :
    Follows ((writeFields level fs).toList ++ ((newline outer).toList ++ rest)) := by
  intro c cs h
  cases fs with
  | nil =>
    rw [writeFields, toList_newline] at h
    exact .inr (List.cons.inj h).1.symm
  | cons f fs =>
    rw [toList_writeFields_cons] at h
    exact .inl (List.cons.inj h).1.symm

mutual

/-- **A value is read back**, as far as it is not nested too deep. -/
theorem value?_writeAt (j : Json) (hj : j.isExact = true) (level fuel limit : Nat)
    (rest : List Char) (hfuel : 2 * (j.writeAt level).toList.length ≤ fuel) (hrest : Follows rest) :
    value? fuel limit ((j.writeAt level).toList ++ rest) = some (j.cut limit, rest) := by
  obtain ⟨fuel, rfl⟩ : ∃ f, fuel = f + 1 := by
    obtain ⟨c, cs, hcs, -⟩ := exists_writeAt_eq_cons hj level
    rw [hcs, List.length_cons] at hfuel
    exact ⟨fuel - 1, by omega⟩
  cases j with
  | null => exact value?_scalar hj rfl level fuel limit hrest
  | bool b => exact value?_scalar hj rfl level fuel limit hrest
  | int n => exact value?_scalar hj rfl level fuel limit hrest
  | str s => exact value?_scalar hj rfl level fuel limit hrest
  | real _ => exact absurd hj Bool.false_ne_true
  | unreadable => exact absurd hj Bool.false_ne_true
  | arr items =>
    cases items with
    | nil => simp [writeAt, value?, isSeparator, cut, cutItems]
    | cons j js =>
      rw [isExact, itemsExact, Bool.and_eq_true] at hj
      simp only [toList_writeAt_arr, toList_newline, List.length_cons, List.length_append] at hfuel
      obtain ⟨fuel, rfl⟩ : ∃ f, fuel = f + 1 := ⟨fuel - 1, by omega⟩
      have hvalue := value?_writeAt j hj.1 (level + 1) fuel (limit - 1) _ (by omega)
        (follows_writeItems (level + 1) level js (']' :: rest))
      have hitems := items?_of_first js hj.2 (level + 1) level fuel (limit - 1) [] hvalue (by omega)
      rw [cut, cutItems]
      exact value?_arr hj.1 hitems
  | obj fields =>
    cases fields with
    | nil => simp [writeAt, value?, isSeparator, cut, cutFields]
    | cons f fs =>
      obtain ⟨k, j⟩ := f
      rw [isExact, fieldsExact, Bool.and_eq_true] at hj
      simp only [toList_writeAt_obj, toList_newline, List.length_cons, List.length_append] at hfuel
      obtain ⟨fuel, rfl⟩ : ∃ f, fuel = f + 1 := ⟨fuel - 1, by omega⟩
      have hvalue := value?_writeAt j hj.1 (level + 1) fuel (limit - 1) _ (by omega)
        (follows_writeFields (level + 1) level fs ('\x7d' :: rest))
      have hfields :=
        fields?_of_first fs hj.2 (level + 1) level fuel (limit - 1) [] k hvalue (by omega)
      rw [cut, cutFields]
      exact value?_obj hfields

/-- Once the first item has been read, the others are. -/
theorem items?_of_first (js : List Json) (hjs : itemsExact js = true) (level outer fuel limit : Nat)
    (done : List Json) {v : Json} {cs rest : List Char}
    (hvalue : value? fuel limit cs
      = some (v, (writeItems level js).toList ++ ((newline outer).toList ++ ']' :: rest)))
    (hfuel : 2 * (writeItems level js).toList.length ≤ fuel) :
    items? (fuel + 1) limit done cs = some (done.reverse ++ v :: cutItems limit js, rest) := by
  rw [items?, hvalue]
  cases js with
  | nil => simp [writeItems, skip_newline, isSeparator, cutItems]
  | cons j js =>
    rw [itemsExact, Bool.and_eq_true] at hjs
    simp only [toList_writeItems_cons, List.length_cons, List.length_append] at hfuel
    obtain ⟨fuel, rfl⟩ : ∃ f, fuel = f + 1 := ⟨fuel - 1, by omega⟩
    have hnext := value?_writeAt j hjs.1 level fuel limit _ (by omega)
      (follows_writeItems level outer js (']' :: rest))
    rw [← value?_newline _ _ level] at hnext
    have hitems := items?_of_first js hjs.2 level outer fuel limit (v :: done) hnext (by omega)
    simp [toList_writeItems_cons, isSeparator, hitems, cutItems]

/-- Once the value of the first field has been read, the other fields are. -/
theorem fields?_of_first (fs : List (String × Json)) (hfs : fieldsExact fs = true)
    (level outer fuel limit : Nat) (done : List (String × Json)) (k : String) {v : Json}
    {cs rest : List Char} (hvalue : value? fuel limit cs
      = some (v, (writeFields level fs).toList ++ ((newline outer).toList ++ '\x7d' :: rest)))
    (hfuel : 2 * (writeFields level fs).toList.length ≤ fuel) :
    fields? (fuel + 1) limit (some done) ((writeString k).toList ++ ':' :: ' ' :: cs)
      = some (some (done.reverse ++ (k, v) :: cutFields limit fs), rest) := by
  have hname := string?_writeString k (':' :: ' ' :: cs)
  have hfirst : skip ((writeString k).toList ++ ':' :: ' ' :: cs)
      = '"' :: (k.toList.flatMap writeChar ++ '"' :: ':' :: ' ' :: cs) := by
    simp [toList_writeString, isSeparator]
  have hcolon : skip (':' :: ' ' :: cs) = ':' :: ' ' :: cs := rfl
  rw [fields?, hfirst]
  simp only [hname, hcolon, value?_blank, hvalue]
  cases fs with
  | nil => simp [writeFields, skip_newline, isSeparator, cutFields]
  | cons f fs =>
    obtain ⟨k', j⟩ := f
    rw [fieldsExact, Bool.and_eq_true] at hfs
    simp only [toList_writeFields_cons, List.length_cons, List.length_append] at hfuel
    obtain ⟨fuel, rfl⟩ : ∃ f, fuel = f + 1 := ⟨fuel - 1, by omega⟩
    have hnext := value?_writeAt j hfs.1 level fuel limit _ (by omega)
      (follows_writeFields level outer fs ('\x7d' :: rest))
    have hfields :=
      fields?_of_first fs hfs.2 level outer fuel limit ((k, v) :: done) k' hnext (by omega)
    rw [← fields?_newline _ _ level] at hfields
    simp [toList_writeFields_cons, isSeparator, hfields, cutFields]

end

end Reader

/-! ## 6. Documents -/

/-- **A document is read back**, with collections beyond the limit cut off. -/
theorem read?_write_eq_cut (limit : Nat) {j : Json} (hj : j.isExact = true) :
    read? limit j.write = some (j.cut limit) := by
  have hvalue := Reader.value?_writeAt j hj 0 (2 * j.write.toList.length + 2) limit []
    (Nat.le_add_right _ 2) nofun
  rw [List.append_nil] at hvalue
  simp only [read?, write] at hvalue ⊢
  rw [hvalue]
  rfl

/-- **A document that is not nested too deep is read back whole.** -/
theorem read?_write {limit : Nat} {j : Json} (hj : j.isExact = true) (hdepth : j.depth ≤ limit) :
    read? limit j.write = some j := by
  rw [read?_write_eq_cut limit hj, cut_of_depth_le limit j hdepth]

end SinkReach.Json
