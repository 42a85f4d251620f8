import BlockVector.Stacked.Json
import BlockVector.Proofs.Number.Text
import BlockVector.Proofs.RowCount.Json
import BlockVector.Proofs.Stacked.Zeros

/-!
# Vectors read back from JSON

A leaf is *faithful* when its encoding has room for its rows (`Leaf.IsFaithful`). A column is,
whatever its length; an object with keys has room for one number each. The numbers of a faithful
leaf are found again in what is written for it (`Leaf.numbers?_toJson`), and a pair is written with
a key for either part. So by induction on the vector it is read back part by part, with the leaves
that it had (`ofJson?_unlimited_toJson`).

A coordinate that is not finite is written as `null`. So its leaf still has a value for each row,
but this value is not read as a number, and the text is refused.

The brackets that are open at once in the text of a vector are as many as its family is nested
(`nesting_toJson`), and whether they are too many for a reader does not depend on anything else in
the text (`ofJson?_eq_ite`). So a vector is read back just if its coordinates are finite and its
family is not nested too deep (`readText?_toText`): a reader of the standard depth stops at 127
pairs.
-/

namespace BlockVector

namespace Json

/-! ## Members by their keys -/

/-- Among members with different keys a key is found once. -/
theorem filter_zip {keys : List String} {values : List Json} {key : String} {value : Json}
    (hkeys : keys.Nodup) (h : (key, value) ∈ keys.zip values) :
    (keys.zip values).filter (·.1 = key) = [(key, value)] := by
  induction keys generalizing values with
  | nil => simp at h
  | cons first keys ih =>
    cases values with
    | nil => simp at h
    | cons v values =>
      obtain ⟨hfirst, hkeys⟩ := List.nodup_cons.mp hkeys
      rw [List.zip_cons_cons] at h ⊢
      obtain heq | hmem := List.mem_cons.mp h
      · cases heq
        have hrest : (keys.zip values).filter (·.1 = key) = [] := by
          rw [List.filter_eq_nil_iff]
          rintro ⟨k, w⟩ hw
          have hk := (List.of_mem_zip hw).1
          simp only [decide_eq_true_eq]
          rintro rfl
          exact hfirst hk
        rw [List.filter_cons_of_pos (by simp), hrest]
      · have hne : first ≠ key := by
          rintro rfl
          exact hfirst (List.of_mem_zip hmem).1
        rw [List.filter_cons_of_neg (by simpa using hne)]
        exact ih hkeys hmem

theorem mapM_eq_some_of_zip {β γ : Type} {f : β → Option γ} {xs : List β} {ys : List γ}
    (hlength : xs.length = ys.length) (h : ∀ m ∈ xs.zip ys, f m.1 = some m.2) :
    xs.mapM f = some ys := by
  induction xs generalizing ys with
  | nil =>
    cases ys with
    | nil => rfl
    | cons y ys => cases hlength
  | cons x xs ih =>
    cases ys with
    | nil => cases hlength
    | cons y ys =>
      rw [List.zip_cons_cons] at h
      obtain ⟨hx, hxs⟩ := List.forall_mem_cons.mp h
      rw [List.mapM_cons, hx, ih (Nat.succ.inj hlength) hxs]
      rfl

/-- **An object gives back the values that it was made of.** -/
theorem fields?_ofMembers {keys : List String} {values : List Json} (hkeys : keys.Nodup)
    (hlength : keys.length = values.length) :
    (ofMembers (keys.zip values)).fields? keys = some values := by
  have hall : ((keys.zip values).map fun m => (some m.1, m.2)).all (·.1.isSome) := by
    simp
  rw [ofMembers, fields?, if_pos hall]
  refine mapM_eq_some_of_zip hlength ?_
  rintro ⟨key, value⟩ hmem
  have hfilter := filter_zip hkeys hmem
  simp only [List.filter_map, Function.comp_def, Option.some.injEq, hfilter, List.map_cons,
    List.map_nil]

/-! ## Open brackets -/

mutual

/-- How many brackets are open at once in the text of a value. -/
def nesting : Json → Nat
  | null => 0
  | bool _ => 0
  | number _ => 0
  | string _ => 0
  | array items => itemsNesting items + 1
  | object members => membersNesting members + 1

/-- How many brackets are open at once in an item of an array. -/
def itemsNesting : List Json → Nat
  | [] => 0
  | v :: items => max v.nesting (itemsNesting items)

/-- How many brackets are open at once in a member of an object. -/
def membersNesting : List (Option String × Json) → Nat
  | [] => 0
  | (_, v) :: members => max v.nesting (membersNesting members)

end

theorem nesting_array_eq_one {items : List Json} (h : ∀ v ∈ items, v.nesting = 0) :
    (array items).nesting = 1 := by
  have hitems : itemsNesting items = 0 := by
    induction items with
    | nil => rfl
    | cons v items ih =>
      rcases List.forall_mem_cons.mp h with ⟨hv, hrest⟩
      rw [itemsNesting, hv, ih hrest, Nat.max_self]
  rw [nesting, hitems]

theorem nesting_ofMembers_eq_one {members : List (String × Json)}
    (h : ∀ m ∈ members, m.2.nesting = 0) : (ofMembers members).nesting = 1 := by
  have hmembers : membersNesting (members.map fun m => (some m.1, m.2)) = 0 := by
    induction members with
    | nil => rfl
    | cons m members ih =>
      rcases List.forall_mem_cons.mp h with ⟨hm, hrest⟩
      rw [List.map_cons, membersNesting, hm, ih hrest, Nat.max_self]
  rw [ofMembers, nesting, hmembers]

end Json

theorem Number.nesting_toJson {f : Format} (w : Window) (x : Number f) :
    (x.toJson w).nesting = 0 := by
  cases x <;> rfl

namespace Leaf

/-! ## Leaves -/

namespace Encoding

/-- The encoding has room for as many numbers as the row count admits. -/
def IsFaithful (rows : RowCount) : Encoding → Prop
  | array => True
  | counted => True
  | fields keys => keys.Nodup ∧ rows = .fixed keys.length
  | bare => rows = .fixed 1
  | unit => rows = .fixed 0

instance (rows : RowCount) : (e : Encoding) → Decidable (e.IsFaithful rows)
  | array => .isTrue trivial
  | counted => .isTrue trivial
  | fields keys => inferInstanceAs (Decidable (keys.Nodup ∧ rows = .fixed keys.length))
  | bare => inferInstanceAs (Decidable (rows = .fixed 1))
  | unit => inferInstanceAs (Decidable (rows = .fixed 0))

end Encoding

/-- The encoding of a leaf has room for its rows. -/
def IsFaithful (l : Leaf) : Prop := l.encoding.IsFaithful l.rows

instance (l : Leaf) : Decidable l.IsFaithful :=
  inferInstanceAs (Decidable (l.encoding.IsFaithful l.rows))

/-- A column is faithful whatever its length is. -/
theorem isFaithful_column (n : Nat) : (column n).IsFaithful := trivial

/-- All leaves that have a name are faithful. -/
theorem isFaithful_of_mem_all : ∀ l ∈ all, l.IsFaithful := by
  decide

variable {α : Type} {number : α → Json}

/-- **The numbers of a leaf are found again.** -/
theorem numbers?_toJson {l : Leaf} {rows : List α} (hl : l.IsFaithful)
    (hrows : l.rows.admits rows.length) (hfits : rows.length ≤ maxCount) :
    l.encoding.numbers? (l.encoding.toJson number rows) = some (rows.map number) := by
  rw [IsFaithful] at hl
  generalize l.encoding = e at *
  cases e with
  | array => rfl
  | counted =>
    rw [Encoding.toJson, Json.ofNat, Encoding.numbers?, List.length_map,
      if_pos (Json.Literal.count?_ofNat hfits)]
  | fields keys =>
    obtain ⟨hkeys, hcount⟩ := hl
    rw [hcount, RowCount.fixed_admits_iff] at hrows
    exact Json.fields?_ofMembers hkeys (by rw [List.length_map, hrows])
  | bare =>
    rw [hl, RowCount.fixed_admits_iff] at hrows
    obtain ⟨x, rfl⟩ := List.length_eq_one_iff.mp hrows.symm
    rfl
  | unit =>
    rw [hl, RowCount.fixed_admits_iff] at hrows
    rw [List.length_eq_zero_iff.mp hrows.symm]
    rfl

theorem isWritable_toJson (hnumber : ∀ x, (number x).IsWritable) (e : Encoding) (rows : List α) :
    (e.toJson number rows).IsWritable := by
  have hrows : ∀ v ∈ rows.map number, v.IsWritable := by
    intro v hv
    obtain ⟨x, -, rfl⟩ := List.mem_map.mp hv
    exact hnumber x
  cases e with
  | array => exact Json.isWritable_array hrows
  | counted =>
    refine Json.isWritable_array ?_
    intro v hv
    simp only [List.mem_cons, List.not_mem_nil, or_false] at hv
    obtain rfl | rfl | rfl := hv
    · exact Json.isWritable_array hrows
    · exact Json.isWritable_number (Json.Literal.isProper_ofNat _)
    · exact Json.isWritable_null
  | fields keys =>
    refine Json.isWritable_ofMembers ?_
    rintro ⟨key, v⟩ hm
    exact hrows v (List.of_mem_zip hm).2
  | bare =>
    cases rows with
    | nil => exact Json.isWritable_null
    | cons x rows => exact hnumber x
  | unit => exact Json.isWritable_null

/-- The brackets around the numbers of a leaf are all that are open in its text. -/
theorem nesting_toJson (hnumber : ∀ x, (number x).nesting = 0) (e : Encoding) (rows : List α) :
    (e.toJson number rows).nesting = e.brackets := by
  have hrows : ∀ v ∈ rows.map number, v.nesting = 0 := by
    intro v hv
    rcases List.mem_map.mp hv with ⟨x, -, rfl⟩
    exact hnumber x
  cases e with
  | array => exact Json.nesting_array_eq_one hrows
  | counted =>
    have hdata : (Json.array (rows.map number)).nesting = 1 := Json.nesting_array_eq_one hrows
    rw [Encoding.toJson, Json.nesting, Json.itemsNesting, hdata]
    rfl
  | fields keys =>
    refine Json.nesting_ofMembers_eq_one ?_
    rintro ⟨key, v⟩ hm
    exact hrows v (List.of_mem_zip hm).2
  | bare =>
    cases rows with
    | nil => rfl
    | cons x rows => exact hnumber x
  | unit => rfl

end Leaf

/-! ## Families -/

namespace Family

/-- All leaves of a family are faithful. -/
def IsFaithful (F : Family) : Prop := ∀ l ∈ F.leaves, l.IsFaithful

instance (F : Family) : Decidable F.IsFaithful :=
  inferInstanceAs (Decidable (∀ l ∈ F.leaves, l.IsFaithful))

/-- How many brackets are open at once in the text of a vector. A pair opens one around both. -/
def nesting : Family → Nat
  | .leaf l => l.encoding.brackets
  | .pair a b => max a.nesting b.nesting + 1

/-- A family of columns without rows, `n` pairs deep. -/
def columns : Nat → Family
  | 0 => .leaf (.column 0)
  | n + 1 => .pair (columns n) (.leaf (.column 0))

theorem nesting_columns (n : Nat) : (columns n).nesting = n + 1 := by
  induction n with
  | zero => rfl
  | succ n ih =>
    have hcolumn : (leaf (.column 0)).nesting = 1 := rfl
    rw [columns, nesting, ih, hcolumn, Nat.max_eq_left (Nat.le_add_left 1 n)]

theorem leaves_columns (n : Nat) : ∀ l ∈ (columns n).leaves, l = .column 0 := by
  induction n with
  | zero => simp [columns, leaves]
  | succ n ih =>
    rw [columns, leaves, List.forall_mem_append]
    exact ⟨ih, by simp [leaves]⟩

end Family

namespace Stacked

variable {α : Type} {number : α → Json} {number? : Json → Option α} {F : Family}

/-- Rows that are all read back make up the rows that were written. -/
theorem mapM_map_number {good : α → Bool}
    (hnumber : ∀ x, number? (number x) = if good x then some x else none) (rows : List α) :
    (rows.map number).mapM number? = if rows.all good then some rows else none := by
  induction rows with
  | nil => rfl
  | cons x rows ih =>
    rw [List.map_cons, List.mapM_cons, ih, hnumber, List.all_cons]
    cases good x <;> cases rows.all good <;> rfl

/-- **The brackets in the text of a vector are those of its family.** -/
theorem nesting_toJson {f : Format} (w : Number.Window) (v : Stacked (Number f) F) :
    (v.toJson (Number.toJson w)).nesting = F.nesting := by
  induction v with
  | @leaf l rows => exact Leaf.nesting_toJson (Number.nesting_toJson w) l.encoding rows
  | pair u w ihu ihw =>
    simp [toJson, Family.nesting, Json.ofMembers, pairKeys, Json.nesting, Json.membersNesting, ihu,
      ihw]

/-- **Whether a text is nested too deep is up to the family alone.** -/
theorem ofJson?_eq_ite (depth : Json.Depth) (json : Json) :
    ofJson? number? depth F json
      = if depth.admits F.nesting then ofJson? number? .unlimited F json else none := by
  induction F generalizing depth json with
  | leaf l =>
    simp only [ofJson?, Family.nesting, Json.Depth.unlimited_admits, Bool.and_true]
    cases depth.admits l.encoding.brackets with
    | true => simp
    | false => simp
  | pair a b iha ihb =>
    rw [Family.nesting, Json.Depth.admits_succ, ofJson?, ofJson?]
    cases depth.enter? with
    | none => rfl
    | some inner =>
      rw [Option.any_some, Json.Depth.admits_max, Json.Depth.enter?_unlimited, Option.bind_eq_bind,
        Option.bind_some, Option.bind_eq_bind, Option.bind_some]
      split
      · -- Both parts are read inside of the bracket, and either may be nested too deep.
        simp only [iha inner, ihb inner]
        cases inner.admits a.nesting <;> cases inner.admits b.nesting <;> simp
      · split <;> rfl

/-- A vector is read back with the leaves that it had, if its coordinates are, however deep it is
nested. -/
theorem ofJson?_unlimited_toJson {good : α → Bool}
    (hnumber : ∀ x, number? (number x) = if good x then some x else none)
    {v : Stacked α F} (hF : F.IsFaithful) (hv : v.WellFormed)
    (hfits : ∀ rows ∈ v.leaves, rows.length ≤ maxCount) :
    ofJson? number? .unlimited F (v.toJson number)
      = if v.toDense.all good then some v else none := by
  induction v with
  | @leaf l rows =>
    have hl : l.IsFaithful := hF l (List.mem_singleton.mpr rfl)
    have hlength : rows.length ≤ maxCount := hfits rows (List.mem_singleton.mpr rfl)
    have hadmits : l.rows.admits rows.length := hv
    rw [toJson, ofJson?, Leaf.numbers?_toJson hl hv hlength, Option.bind_eq_bind, Option.bind_some,
      mapM_map_number hnumber, toDense]
    cases rows.all good with
    | true => simp [hadmits]
    | false => rfl
  | @pair a b u w ihu ihw =>
    rw [Family.IsFaithful, Family.leaves, List.forall_mem_append] at hF
    rw [leaves, List.forall_mem_append] at hfits
    have hfields :
        (Json.ofMembers (pairKeys.zip [u.toJson number, w.toJson number])).fields? pairKeys
          = some [u.toJson number, w.toJson number] :=
      Json.fields?_ofMembers (by decide) rfl
    rw [toJson, ofJson?, Json.Depth.enter?_unlimited, Option.bind_eq_bind, Option.bind_some]
    simp only [hfields, ihu hF.1 hv.1 hfits.1, ihw hF.2 hv.2 hfits.2, toDense, List.all_append]
    cases u.toDense.all good <;> cases w.toDense.all good <;> rfl

theorem isWritable_toJson (hnumber : ∀ x, (number x).IsWritable) (v : Stacked α F) :
    (v.toJson number).IsWritable := by
  induction v with
  | @leaf l rows => exact Leaf.isWritable_toJson hnumber l.encoding rows
  | pair u w ihu ihw =>
    refine Json.isWritable_ofMembers ?_
    intro m hm
    simp only [pairKeys, List.zip_cons_cons, List.zip_nil_right, List.mem_cons, List.not_mem_nil,
      or_false] at hm
    obtain rfl | rfl := hm
    · exact ihu
    · exact ihw

/-- **A vector is read back if its coordinates are and its family is not nested too deep.** -/
theorem readText?_toText {s : Scalar} {number? : Json → Option s.Coordinate}
    (hnumber : Number.IsReader s.window number?) (depth : Json.Depth) {v : Stacked s.Coordinate F}
    (hF : F.IsFaithful) (hv : v.WellFormed) (hfits : ∀ rows ∈ v.leaves, rows.length ≤ maxCount) :
    readText? number? depth F (v.toText s)
      = if depth.admits F.nesting && v.toDense.all Number.isFinite then some v else none := by
  have hwritable := isWritable_toJson (Number.isWritable_toJson s.window) v
  rw [readText?, toText, Json.ofText?_text hwritable, Option.bind_some, ofJson?_eq_ite,
    ofJson?_unlimited_toJson hnumber.read_toJson hF hv hfits]
  cases depth.admits F.nesting <;> rfl

/-- **A reader of the standard depth reads 126 pairs one inside of the other, and refuses 127**,
even where they hold nothing. -/
theorem ofText?_toText_columns (s : Scalar) (n : Nat) :
    ofText? s (.columns n) ((zeros (.zero _) (.columns n)).toText s)
      = if n < 127 then some (zeros (.zero _) (.columns n)) else none := by
  have hF : (Family.columns n).IsFaithful := by
    intro l hl
    rw [Family.leaves_columns n l hl]
    exact Leaf.isFaithful_column 0
  have hleaves : ∀ rows ∈ (zeros (Number.zero s.format) (.columns n)).leaves, rows = [] := by
    intro rows hrows
    rw [leaves_zeros] at hrows
    rcases List.mem_map.mp hrows with ⟨l, hl, rfl⟩
    rw [Family.leaves_columns n l hl]
    rfl
  have hdense : (zeros (Number.zero s.format) (.columns n)).toDense = [] := by
    rw [← flatten_leaves, List.flatten_eq_nil_iff]
    exact hleaves
  have hfits : ∀ rows ∈ (zeros (Number.zero s.format) (.columns n)).leaves,
      rows.length ≤ maxCount := by
    intro rows hrows
    rw [hleaves rows hrows]
    exact Nat.zero_le _
  have hdepth : Json.Depth.standard.admits (n + 1) ↔ n < 127 := decide_eq_true_iff
  rw [ofText?, readText?_toText (Number.isReader_ofJson? _) _ hF (wellFormed_zeros _ _) hfits,
    Family.nesting_columns, hdense, List.all_nil, Bool.and_true]
  simp only [hdepth]

end Stacked

end BlockVector
