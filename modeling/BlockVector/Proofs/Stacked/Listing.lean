import BlockVector.Proofs.Json.Literal
import BlockVector.Stacked.Listing

/-!
# Every coordinate has its entry in a listing

A listing asks the family for a name at each index of the dense form. A leaf may look the name up in
a list that ends, and a pair does not ask its parts at all. Still no index of a vector is without a
name (`exists_coordinateName`), and no two have the same one (`coordinateName_inj`): the names of a
leaf suit its row count (`Leaf.IsLabelled`), and two indices have two numerals.

So the number of decimal places is all that can stop a listing, and that only where a number is
written with it (`listing_eq_error_iff`). Every other listing has an entry for each row.
-/

namespace BlockVector

/-! ## Names -/

namespace Leaf

/-- Each coordinate of a leaf with a given row count has a name, and no other one has it. -/
def Labels.Suits (rows : RowCount) : Labels → Prop
  | indexed => True
  | listed names => names.Nodup ∧ rows = .fixed names.length
  | same _ => rows = .fixed 1
  | ordinal => True

instance (rows : RowCount) : (labels : Labels) → Decidable (labels.Suits rows)
  | .indexed => .isTrue trivial
  | .listed names => inferInstanceAs (Decidable (names.Nodup ∧ rows = .fixed names.length))
  | .same _ => inferInstanceAs (Decidable (rows = .fixed 1))
  | .ordinal => .isTrue trivial

/-- The names of a leaf suit its row count. -/
def IsLabelled (l : Leaf) : Prop := l.labels.Suits l.rows

instance (l : Leaf) : Decidable l.IsLabelled := inferInstanceAs (Decidable (l.labels.Suits l.rows))

/-- A leaf in use: a column, or a leaf that has a name. -/
def InUse (l : Leaf) : Prop := (∃ n, l = column n) ∨ l ∈ all

theorem InUse.isLabelled {l : Leaf} (h : l.InUse) : l.IsLabelled := by
  have hall : ∀ l ∈ all, l.IsLabelled := by decide
  rcases h with ⟨n, rfl⟩ | hmem
  · trivial
  · exact hall l hmem

namespace Labels

variable {labels : Labels} {names : List String} {rows : RowCount} {count i j : Nat}
  {label : String}

theorem name_listed_eq_ok_iff : (listed names).name i = .ok label ↔ names[i]? = some label := by
  unfold name
  cases h : names[i]? <;> simp [h]

theorem name_ordinal_eq_ok_iff :
    ordinal.name i = .ok label ↔ i + 1 ≤ maxCount ∧ "r" ++ Nat.repr (i + 1) = label := by
  by_cases h : i + 1 ≤ maxCount
  · simp [name, Count.add_of_le h, Except.map, h]
  · simp [name, Count.add_of_lt (Nat.not_le.mp h), Except.map, h]

/-- **No coordinate is without a name.** -/
theorem exists_name (h : labels.Suits rows) (hrows : rows.admits count) (hcount : count ≤ maxCount)
    (hi : i < count) : ∃ label, labels.name i = .ok label := by
  cases labels with
  | indexed => exact ⟨_, rfl⟩
  | listed names =>
    obtain ⟨-, rfl⟩ := h
    rw [RowCount.fixed_admits_iff] at hrows
    exact ⟨_, name_listed_eq_ok_iff.mpr (List.getElem?_eq_getElem (by omega))⟩
  | same label => exact ⟨_, rfl⟩
  | ordinal => exact ⟨_, name_ordinal_eq_ok_iff.mpr ⟨by omega, rfl⟩⟩

/-- **No two coordinates have the same name.** -/
theorem name_inj (h : labels.Suits rows) (hrows : rows.admits count) (hi : i < count)
    (hj : j < count) (hni : labels.name i = .ok label) (hnj : labels.name j = .ok label) :
    i = j := by
  cases labels with
  | indexed =>
    rw [← hnj] at hni
    exact Json.Literal.repr_inj.mp ((String.append_right_inj _).mp (Except.ok.inj hni))
  | listed names =>
    obtain ⟨hnodup, rfl⟩ := h
    rw [RowCount.fixed_admits_iff] at hrows
    rw [name_listed_eq_ok_iff] at hni hnj
    have hlt : i < names.length := by omega
    exact (List.getElem?_inj hlt hnodup).mp (hni.trans hnj.symm)
  | same label' =>
    rw [show rows = .fixed 1 from h, RowCount.fixed_admits_iff] at hrows
    omega
  | ordinal =>
    obtain ⟨-, hni⟩ := name_ordinal_eq_ok_iff.mp hni
    obtain ⟨-, hnj⟩ := name_ordinal_eq_ok_iff.mp hnj
    rw [← hnj, String.append_right_inj, Json.Literal.repr_inj] at hni
    omega

end Labels

end Leaf

namespace Stacked

variable {α : Type u} {F : Family}

/-- **Every coordinate of a vector has a name.** -/
theorem exists_coordinateName {v : Stacked α F} (hF : ∀ l ∈ F.leaves, l.InUse)
    (hv : v.WellFormed) (hfits : ∀ rows ∈ v.leaves, rows.length ≤ maxCount) {i : Nat}
    (hi : i < v.size) : ∃ label, F.coordinateName i = .ok label := by
  rw [hv.size_eq] at hi
  cases v with
  | @leaf l rows =>
    have hl : l.IsLabelled := (hF l (List.mem_singleton_self l)).isLabelled
    exact Leaf.Labels.exists_name hl hv (hfits rows (List.mem_singleton_self rows)) hi
  | pair u w => exact ⟨_, rfl⟩

/-- **Different coordinates of a vector have different names.** -/
theorem coordinateName_inj {v : Stacked α F} (hF : ∀ l ∈ F.leaves, l.InUse) (hv : v.WellFormed)
    {i j : Nat} (hi : i < v.size) (hj : j < v.size) {label : String}
    (hni : F.coordinateName i = .ok label) (hnj : F.coordinateName j = .ok label) : i = j := by
  rw [hv.size_eq] at hi hj
  cases v with
  | @leaf l rows =>
    have hl : l.IsLabelled := (hF l (List.mem_singleton_self l)).isLabelled
    exact Leaf.Labels.name_inj hl hv hi hj hni hnj
  | pair u w =>
    -- A pair names its coordinates by index, however many there are.
    have hindexed : Leaf.Labels.indexed.Suits .dynamic := trivial
    exact Leaf.Labels.name_inj hindexed rfl hi hj hni hnj

end Stacked

/-! ## Numbers -/

/-- A number is written unless it is to have too many decimal places. -/
theorem Number.textAt_eq_error_iff {f : Format} {x : Number f} {precision : Option Nat}
    {failure : Failure} :
    x.textAt precision = .error failure ↔
      failure = .fieldOutOfRange ∧ ∃ places ∈ precision, maxField < places := by
  cases precision with
  | none => simp [textAt]
  | some places =>
    by_cases h : places ≤ maxField
    · simp [textAt, h]
    · simp [textAt, h, Nat.not_le.mp h, eq_comm]

/-! ## One entry after another -/

section

variable {ε β γ : Type} {g : β → Except ε γ} {xs : List β}

theorem mapM_eq_ok_iff {ys : List γ} : xs.mapM g = .ok ys ↔ xs.map g = ys.map .ok := by
  induction xs generalizing ys with
  | nil => cases ys <;> simp [pure, Except.pure]
  | cons x xs ih =>
    rw [List.mapM_cons, List.map_cons]
    cases hx : g x with
    | error e => cases ys <;> simp [bind, Except.bind]
    | ok y =>
      cases hxs : xs.mapM g with
      | error e => cases ys <;> simp [bind, Except.bind, ← ih, hxs]
      | ok ys' => cases ys <;> simp [bind, Except.bind, pure, Except.pure, ← ih, hxs]

theorem exists_mem_of_mapM_eq_error {e : ε} (h : xs.mapM g = .error e) :
    ∃ x ∈ xs, g x = .error e := by
  induction xs with
  | nil => cases h
  | cons x xs ih =>
    rw [List.mapM_cons] at h
    cases hx : g x with
    | error e' =>
      rw [hx] at h
      cases h
      exact ⟨x, List.mem_cons_self, hx⟩
    | ok y =>
      cases hxs : xs.mapM g with
      | error e' =>
        rw [hx, hxs] at h
        cases h
        obtain ⟨x', hmem, hx'⟩ := ih hxs
        exact ⟨x', List.mem_cons_of_mem x hmem, hx'⟩
      | ok ys =>
        rw [hx, hxs] at h
        cases h

end

namespace Stacked

variable {f : Format} {F : Family} {config : Listing.Config} {v : Stacked (Number f) F}

theorem listingEntry_eq_ok_iff {x : Number f} {index : Nat} {entry : String} :
    listingEntry F config x index = .ok entry ↔
      ∃ name number, F.coordinateName index = .ok name ∧ x.textAt config.precision = .ok number ∧
        entry = name ++ config.assignment ++ number := by
  unfold listingEntry
  cases F.coordinateName index with
  | error e => simp [bind, Except.bind]
  | ok name =>
    cases x.textAt config.precision with
    | error e => simp [bind, Except.bind]
    | ok number => simp [bind, Except.bind, pure, Except.pure, eq_comm]

/-- Where there is a name, only the number can be missing. -/
theorem listingEntry_eq_error_iff {x : Number f} {index : Nat} {label : String}
    (hname : F.coordinateName index = .ok label) {failure : Failure} :
    listingEntry F config x index = .error failure ↔
      x.textAt config.precision = .error failure := by
  rw [listingEntry, hname]
  cases x.textAt config.precision with
  | error e => simp [bind, Except.bind]
  | ok number => simp [bind, Except.bind, pure, Except.pure]

/-- The entries of a listing, one for each row of the dense form. -/
def entries (config : Listing.Config) (v : Stacked (Number f) F) : Except Failure (List String) :=
  v.toDense.zipIdx.mapM fun (x, index) => listingEntry F config x index

theorem listing_eq (config : Listing.Config) (v : Stacked (Number f) F) :
    v.listing config = (v.entries config).map config.separator.intercalate := by
  rw [listing, entries]
  cases v.toDense.zipIdx.mapM fun (x, index) => listingEntry F config x index <;> rfl

theorem getElem?_of_entries {texts : List String} (h : v.entries config = .ok texts) :
    texts.length = v.toDense.length ∧
      ∀ i x, v.toDense[i]? = some x → ∃ entry, texts[i]? = some entry ∧
        listingEntry F config x i = .ok entry := by
  have hmap := mapM_eq_ok_iff.mp h
  constructor
  · have hlength := congrArg List.length hmap
    rw [List.length_map, List.length_map, List.length_zipIdx] at hlength
    exact hlength.symm
  · intro i x hx
    have hi := congrArg (·[i]?) hmap
    simp only [List.getElem?_map, List.getElem?_zipIdx, hx, Option.map_some, Nat.zero_add] at hi
    obtain ⟨entry, hentry, hok⟩ := Option.map_eq_some_iff.mp hi.symm
    exact ⟨entry, hentry, hok.symm⟩

/-! ## The listing -/

section Vector

variable (hF : ∀ l ∈ F.leaves, l.InUse) (hv : v.WellFormed)
  (hfits : ∀ rows ∈ v.leaves, rows.length ≤ maxCount)

include hF hv hfits

/-- The entry of a row is there if its number is. -/
theorem listingEntry_of_row {i : Nat} {x : Number f} (hx : v.toDense[i]? = some x)
    {failure : Failure} :
    listingEntry F config x i = .error failure ↔
      x.textAt config.precision = .error failure := by
  obtain ⟨hlt, -⟩ := List.getElem?_eq_some_iff.mp hx
  rw [← hv.size_eq] at hlt
  obtain ⟨label, hlabel⟩ := exists_coordinateName hF hv hfits hlt
  exact listingEntry_eq_error_iff hlabel

theorem places_of_entries_eq_error {failure : Failure} (h : v.entries config = .error failure) :
    failure = .fieldOutOfRange ∧ 1 ≤ v.size ∧
      ∃ places ∈ config.precision, Number.maxField < places := by
  obtain ⟨⟨x, i⟩, hmem, hx⟩ := exists_mem_of_mapM_eq_error h
  rw [List.mk_mem_zipIdx_iff_getElem?] at hmem
  obtain ⟨hlt, -⟩ := List.getElem?_eq_some_iff.mp hmem
  rw [listingEntry_of_row hF hv hfits hmem, Number.textAt_eq_error_iff] at hx
  rw [hv.size_eq]
  exact ⟨hx.1, by omega, hx.2⟩

/-- With too many decimal places not even the first entry is written. -/
theorem entries_ne_ok (hsize : 1 ≤ v.size)
    (hplaces : ∃ places ∈ config.precision, Number.maxField < places) (texts : List String) :
    v.entries config ≠ .ok texts := by
  intro h
  rw [hv.size_eq] at hsize
  have hfirst : v.toDense[0]? = some v.toDense[0] := List.getElem?_eq_getElem hsize
  obtain ⟨entry, -, hok⟩ := (getElem?_of_entries h).2 0 _ hfirst
  have herror := Number.textAt_eq_error_iff (x := v.toDense[0]).mpr ⟨rfl, hplaces⟩
  rw [(listingEntry_of_row hF hv hfits hfirst).mpr herror] at hok
  cases hok

/-- **Only the number of decimal places stops a listing**, and only where a number is written. -/
theorem listing_eq_error_iff {failure : Failure} :
    v.listing config = .error failure ↔
      failure = .fieldOutOfRange ∧ 1 ≤ v.size ∧
        ∃ places ∈ config.precision, Number.maxField < places := by
  rw [listing_eq]
  cases h : v.entries config with
  | error e =>
    have herror := places_of_entries_eq_error hF hv hfits h
    simp only [Except.map, Except.error.injEq]
    constructor
    · rintro rfl
      exact herror
    · rintro ⟨rfl, -⟩
      exact herror.1
  | ok texts =>
    simp only [Except.map, reduceCtorEq, false_iff]
    rintro ⟨-, hsize, hplaces⟩
    exact entries_ne_ok hF hv hfits hsize hplaces texts h

end Vector

/--
**A listing has an entry for every coordinate, under a name of its own.**

The leaves of the family are columns, fixed or dynamic, and others that have a name. None holds more
rows than a word can count. The only failure is that a number was to be written with more decimal
places than there can be. Every other listing has as many entries as the vector has rows, and each
of them is the name, the assignment and the number of its row. The names are all different.
-/
theorem listing_names_every_coordinate (hF : ∀ l ∈ F.leaves, l.InUse) (hv : v.WellFormed)
    (hfits : ∀ rows ∈ v.leaves, rows.length ≤ maxCount) (config : Listing.Config) :
    (∀ failure, v.listing config = .error failure ↔
      failure = .fieldOutOfRange ∧ 1 ≤ v.size ∧
        ∃ places ∈ config.precision, Number.maxField < places) ∧
    (¬ (1 ≤ v.size ∧ ∃ places ∈ config.precision, Number.maxField < places) →
      ∃ texts : List String, v.listing config = .ok (config.separator.intercalate texts) ∧
        texts.length = v.size ∧
        ∀ i x, v.toDense[i]? = some x → ∃ name number, F.coordinateName i = .ok name ∧
          x.textAt config.precision = .ok number ∧
          texts[i]? = some (name ++ config.assignment ++ number)) ∧
    ∀ i j, i < v.size → j < v.size → i ≠ j → ∃ name name', F.coordinateName i = .ok name ∧
      F.coordinateName j = .ok name' ∧ name ≠ name' := by
  refine ⟨fun failure => listing_eq_error_iff hF hv hfits, ?_, ?_⟩
  · intro hrange
    cases h : v.entries config with
    | error e =>
      have herror : v.listing config = .error e := by
        rw [listing_eq, h]
        rfl
      exact absurd ((listing_eq_error_iff hF hv hfits).mp herror).2 hrange
    | ok texts =>
      obtain ⟨hlength, hentries⟩ := getElem?_of_entries h
      refine ⟨texts, ?_, ?_, ?_⟩
      · rw [listing_eq, h]
        rfl
      · rw [hlength, hv.size_eq]
      · intro i x hx
        obtain ⟨entry, hentry, hok⟩ := hentries i x hx
        obtain ⟨name, number, hname, hnumber, rfl⟩ := listingEntry_eq_ok_iff.mp hok
        exact ⟨name, number, hname, hnumber, hentry⟩
  · intro i j hi hj hne
    obtain ⟨name, hname⟩ := exists_coordinateName hF hv hfits hi
    obtain ⟨name', hname'⟩ := exists_coordinateName hF hv hfits hj
    refine ⟨name, name', hname, hname', ?_⟩
    rintro rfl
    exact hne (coordinateName_inj hF hv hi hj hname hname')

/-- Two numbers cannot be written with 65536 decimal places, but no numbers can. -/
theorem listing_names_every_coordinate_ragged :
    (∀ l ∈ (Family.leaf .ragged).leaves, l.InUse) ∧
    listing { precision := some 65536 }
      (leaf [.nan, .infinite true] : Stacked (Number .binary64) (.leaf .ragged))
      = .error .fieldOutOfRange ∧
    (∃ texts : List String, listing { precision := some 65536 }
      (leaf [] : Stacked (Number .binary64) (.leaf .ragged))
        = .ok ("\n".intercalate texts) ∧ texts.length = 0) ∧
    ∃ name name', (Family.leaf .ragged).coordinateName 0 = .ok name ∧
      (Family.leaf .ragged).coordinateName 1 = .ok name' ∧ name ≠ name' := by
  have hF : ∀ l ∈ (Family.leaf .ragged).leaves, l.InUse := by
    intro l hl
    rw [List.mem_singleton.mp hl]
    exact Or.inr (by decide)
  obtain ⟨htwo, -, hnames⟩ := listing_names_every_coordinate hF
    (v := leaf [.nan (f := .binary64), .infinite true]) rfl (by decide)
    { precision := some 65536 }
  obtain ⟨-, hnone, -⟩ := listing_names_every_coordinate hF
    (v := (leaf [] : Stacked (Number .binary64) _)) rfl (by decide)
    { precision := some 65536 }
  obtain ⟨texts, htexts, hlength, -⟩ := hnone fun h => absurd h.1 (by decide)
  exact ⟨hF, (htwo _).mpr ⟨rfl, by decide, 65536, rfl, by decide⟩, ⟨texts, htexts, hlength⟩,
    hnames 0 1 (by decide) (by decide) (by decide)⟩

end Stacked

end BlockVector
