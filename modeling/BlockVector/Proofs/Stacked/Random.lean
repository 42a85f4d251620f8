import BlockVector.Stacked.Random
import BlockVector.Proofs.Number.Random
import BlockVector.Proofs.Stacked.Regrouping

/-!
# Drawing row by row

The source is asked for one word after the other, as many as there are rows (`draw_eq`), and each
word chooses a row of the dense vector. With as many rows as the fixed leaves hold, the dense vector
is accepted and none of its rows is lost. So the dense form of a random vector is the row of the
chosen coordinates, whatever the leaves are and however they are grouped (`random_eq_ok`).

Two random vectors drawn one after the other are the parts of the random pair, as the words of the
pair are those of its first part followed by those of its second (`words_add`).
-/

namespace BlockVector

/-! ## Words of a source -/

namespace Generator

/-- The state after `n` words. -/
def after {γ : Type u} (g : Generator γ) : Nat → γ → γ
  | 0, state => state
  | n + 1, state => g.after n (g.next state).2

variable {γ : Type u} (g : Generator γ)

/-- Word `i` of those that are drawn from a state on. -/
def word (i : Nat) (state : γ) : UInt64 := (g.next (g.after i state)).1

/-- The words `0` to `n - 1`. -/
def words (n : Nat) (state : γ) : List UInt64 := (List.range n).map (g.word · state)

theorem words_zero (state : γ) : g.words 0 state = [] := rfl

theorem words_succ (n : Nat) (state : γ) :
    g.words (n + 1) state = (g.next state).1 :: g.words n (g.next state).2 := by
  rw [words, List.range_succ_eq_map, List.map_cons, List.map_map]
  rfl

theorem length_words (n : Nat) (state : γ) : (g.words n state).length = n := by
  rw [words, List.length_map, List.length_range]

theorem draw_succ (n : Nat) (state : γ) :
    g.draw (n + 1) state
      = ((g.next state).1 :: (g.draw n (g.next state).2).1, (g.draw n (g.next state).2).2) := rfl

/-- **What is drawn are the first words in their order.** -/
theorem draw_eq (n : Nat) (state : γ) : g.draw n state = (g.words n state, g.after n state) := by
  induction n generalizing state with
  | zero => rfl
  | succ n ih =>
    rw [draw_succ, ih, words_succ]
    rfl

theorem after_add (m n : Nat) (state : γ) :
    g.after (m + n) state = g.after n (g.after m state) := by
  induction m generalizing state with
  | zero => rw [Nat.zero_add, after]
  | succ m ih =>
    rw [Nat.succ_add, after, ih]
    rfl

theorem words_add (m n : Nat) (state : γ) :
    g.words (m + n) state = g.words m state ++ g.words n (g.after m state) := by
  induction m generalizing state with
  | zero => rw [Nat.zero_add, words_zero, List.nil_append, after]
  | succ m ih =>
    rw [Nat.succ_add, words_succ, words_succ, ih]
    rfl

end Generator

namespace Stacked

variable {α : Type u} {γ : Type} {F G : Family} {m n : Nat}

theorem fromDense_toDense_of_fixed {v : Stacked α F} (hF : F.rows = .fixed n) (hv : v.WellFormed) :
    fromDense F v.toDense = .ok v := by
  have hnone := (Family.rows_eq_fixed_iff.mp hF).1
  exact fromDense_of_outcome (tryFromDense_toDense hv (by omega))

/-- As many rows as a fixed row count asks for are the dense form of some vector. -/
theorem exists_toDense_eq_of_fixed {xs : List α} (hF : F.rows = .fixed n) (hxs : xs.length = n) :
    ∃ v : Stacked α F, v.WellFormed ∧ v.toDense = xs := by
  have hrows := (Family.rows_eq_fixed_iff.mp hF).2
  refine exists_toDense_eq ?_ (by omega)
  rw [hF, RowCount.fixed_admits_iff, hxs]

/-- The rows that a random vector of `n` rows has. -/
def randomRows (f : Format) (g : Generator γ) (n : Nat) (state : γ) : List (Number f) :=
  (g.words n state).map (Random.coordinate f)

theorem random_of_fixed (f : Format) (hF : F.rows = .fixed n) (g : Generator γ) (state : γ) :
    random f F g state = (fromDense F (randomRows f g n state), g.after n state) := by
  have hrows : F.rows.orElse 0 = n := by
    rw [hF]
    rfl
  rw [random, hrows, g.draw_eq]
  rfl

/-- **A random vector exists, and its rows are those that the words choose.** -/
theorem random_eq_ok (f : Format) (hF : F.rows = .fixed n) (g : Generator γ) (state : γ) :
    ∃ v : Stacked (Number f) F, random f F g state = (.ok v, g.after n state) ∧ v.WellFormed ∧
      v.toDense = randomRows f g n state := by
  have hlength : (randomRows f g n state).length = n := by
    rw [randomRows, List.length_map, g.length_words]
  obtain ⟨v, hv, hdense⟩ := exists_toDense_eq_of_fixed hF hlength
  refine ⟨v, ?_, hv, hdense⟩
  rw [random_of_fixed f hF, ← hdense, fromDense_toDense_of_fixed hF hv]

/-- **A random pair is made of random parts**, drawn one after the other. -/
theorem random_pair (f : Format) (hF : F.rows = .fixed m) (hG : G.rows = .fixed n)
    (g : Generator γ) (state : γ) :
    ∃ (u : Stacked (Number f) F) (w : Stacked (Number f) G),
      random f F g state = (.ok u, g.after m state) ∧
      random f G g (g.after m state) = (.ok w, g.after (m + n) state) ∧
      random f (.pair F G) g state = (.ok (pair u w), g.after (m + n) state) := by
  obtain ⟨u, hu, hwfu, hdenseu⟩ := random_eq_ok f hF g state
  obtain ⟨w, hw, hwfw, hdensew⟩ := random_eq_ok f hG g (g.after m state)
  have hrows : (Family.pair F G).rows = .fixed (m + n) := by
    rw [Family.rows, hF, hG]
    rfl
  have hdense : (pair u w).toDense = randomRows f g (m + n) state := by
    rw [toDense, hdenseu, hdensew, randomRows, randomRows, randomRows, g.words_add, List.map_append]
  refine ⟨u, w, hu, ?_, ?_⟩
  · rw [hw, g.after_add]
  · have hwf : (pair u w).WellFormed := ⟨hwfu, hwfw⟩
    rw [random_of_fixed f hrows, ← hdense, fromDense_toDense_of_fixed hrows hwf]

/--
**A random vector is drawn row by row, whatever its structure.**

A vector of `n` rows takes the next `n` words, and row `i` is the coordinate that word `i` chooses.
So the parts of a random pair are random vectors drawn one after the other, and two families with
the same leaves have the same random rows.
-/
theorem random_row_by_row (f : Format) (hF : F.rows = .fixed n) (g : Generator γ) (state : γ) :
    (∃ v : Stacked (Number f) F, random f F g state = (.ok v, g.after n state) ∧ v.WellFormed ∧
      v.toDense = (List.range n).map fun i => Random.coordinate f (g.word i state)) ∧
    (∀ (G : Family) (m : Nat), G.rows = .fixed m →
      ∃ (u : Stacked (Number f) F) (w : Stacked (Number f) G),
        random f F g state = (.ok u, g.after n state) ∧
        random f G g (g.after n state) = (.ok w, g.after (n + m) state) ∧
        random f (.pair F G) g state = (.ok (pair u w), g.after (n + m) state)) ∧
    ∀ G : Family, G.leaves = F.leaves →
      ∃ (v : Stacked (Number f) F) (w : Stacked (Number f) G),
        random f F g state = (.ok v, g.after n state) ∧
        random f G g state = (.ok w, g.after n state) ∧ w.toDense = v.toDense := by
  obtain ⟨v, hv, hwf, hdense⟩ := random_eq_ok f hF g state
  refine ⟨⟨v, hv, hwf, ?_⟩, ?_, ?_⟩
  · rw [hdense, randomRows, Generator.words, List.map_map]
    rfl
  · intro G m hG
    exact random_pair f hF hG g state
  · intro G hleaves
    have hG : G.rows = .fixed n := (Family.rows_congr hleaves).trans hF
    obtain ⟨w, hw, -, hdensew⟩ := random_eq_ok f hG g state
    exact ⟨v, w, hv, hw, hdensew.trans hdense.symm⟩

/-- Two leaves that ignore rows, one of them without rows of its own, in front of a column. A source
that counts up is asked for three words. -/
theorem random_row_by_row_counting :
    (Family.pair (.leaf .noInput) (.leaf .velocity)).rows = .fixed 2 ∧
    (Family.leaf (.column 1)).rows = .fixed 1 ∧
    ∃ (u : Stacked (Number .binary32) (.pair (.leaf .noInput) (.leaf .velocity)))
        (w : Stacked (Number .binary32) (.leaf (.column 1))),
      random .binary32 (.pair (.leaf .noInput) (.leaf .velocity))
        ⟨fun word => (word, word + 1)⟩ (7 : UInt64) = (.ok u, 9) ∧
      random .binary32 (.leaf (.column 1)) ⟨fun word => (word, word + 1)⟩ (9 : UInt64)
        = (.ok w, 10) ∧
      random .binary32 (.pair (.pair (.leaf .noInput) (.leaf .velocity)) (.leaf (.column 1)))
        ⟨fun word => (word, word + 1)⟩ (7 : UInt64) = (.ok (pair u w), 10) := by
  have hF : (Family.pair (.leaf .noInput) (.leaf .velocity)).rows = .fixed 2 := rfl
  have hG : (Family.leaf (.column 1)).rows = .fixed 1 := rfl
  exact ⟨hF, hG, (random_row_by_row .binary32 hF ⟨fun word => (word, word + 1)⟩ 7).2.1 _ 1 hG⟩

/--
**The coordinates of a random vector lie between -1 and 1, and single precision reaches 1.**

They are finite and never below -1. In double precision they are below 1. In single precision the
row of a word is 1 just where the word begins with 26 ones.
-/
theorem random_in_range (s : Scalar) (hF : F.rows = .fixed n) (g : Generator γ) (state : γ) :
    ∃ v : Stacked s.Coordinate F, random s.format F g state = (.ok v, g.after n state) ∧
      v.toDense.length = n ∧
      ∀ i < n, ∃ (x : s.Coordinate) (c : Rat), v.toDense[i]? = some x ∧ x.value? = some c ∧
        -1 ≤ c ∧ c ≤ 1 ∧
        (c = 1 ↔ s = .single ∧ 18446743798831644672 ≤ (g.word i state).toNat) := by
  obtain ⟨v, hv, hwf, hdense⟩ := random_eq_ok s.format hF g state
  refine ⟨v, hv, hwf.length_toDense hF, ?_⟩
  intro i hi
  obtain ⟨c, hc, hrange⟩ := Random.exists_value?_coordinate s (g.word i state)
  refine ⟨_, c, ?_, hc, hrange⟩
  rw [hdense, randomRows, Generator.words, List.map_map, List.getElem?_map,
    List.getElem?_range hi, Option.map_some, Function.comp_apply]

/-- A velocity in single precision, from a source of words that begin with 26 ones and then have
none. -/
theorem random_in_range_velocity :
    (Family.leaf .velocity).rows = .fixed 2 ∧
    ∃ v : Stacked Scalar.single.Coordinate (.leaf .velocity),
      random Scalar.single.format (.leaf .velocity) ⟨fun _ => (18446743798831644672, ())⟩ ()
        = (.ok v, ()) ∧
      ∃ (x : Scalar.single.Coordinate) (c : Rat), v.toDense[1]? = some x ∧ x.value? = some c ∧
        -1 ≤ c ∧ c = 1 := by
  have hF : (Family.leaf .velocity).rows = .fixed 2 := rfl
  obtain ⟨v, hv, -, hrows⟩ :=
    random_in_range .single hF ⟨fun _ => (18446743798831644672, ())⟩ ()
  obtain ⟨x, c, hx, hc, hlow, -, hiff⟩ := hrows 1 (by decide)
  have hword : 18446743798831644672 ≤ (18446743798831644672 : UInt64).toNat := by decide
  exact ⟨hF, v, hv, x, c, hx, hc, hlow, hiff.mpr ⟨rfl, hword⟩⟩

/-- The half-open interval is left: a column of one row in single precision is 1. -/
theorem random_reaches_one :
    ∃ (v : Stacked Scalar.single.Coordinate (.leaf (.column 1))) (x : Scalar.single.Coordinate),
      (random Scalar.single.format (.leaf (.column 1)) ⟨fun _ => (18446744073709551615, ())⟩ ()).1
        = .ok v ∧
      x ∈ v.toDense ∧ x.value? = some 1 := by
  have hword : 18446743798831644672 ≤ (18446744073709551615 : UInt64).toNat := by decide
  refine ⟨leaf [Random.coordinate .binary32 18446744073709551615],
    Random.coordinate .binary32 18446744073709551615, rfl, ?_, ?_⟩
  · exact List.mem_singleton.mpr rfl
  · exact (Random.value?_coordinate_single_eq_one_iff _).mpr hword

end Stacked

end BlockVector
