import BlockVector.Proofs.Json.Literal
import BlockVector.Stacked.Checked

/-!
# What the text of a mismatch tells

A mismatch keeps the counts of a wrong size as texts, and its own text puts them between fixed
words. Not every two mismatches are told apart by that, as the words could also stand in the texts.
But a conversion only refuses because of counts that it has compared (`hasCause_of_refusal`), and a
numeral never has a comma or a blank in it, which the fixed words behind it begin with
(`framed_inj`). So the text of a refusal tells which kind of mismatch it is and all its counts
(`message_tells_cause`).
-/

namespace BlockVector

namespace RowCount

theorem notMem_toList_toString {c : Char} (hc : c.isDigit = false) (hletter : c.isAlpha = false)
    (count : RowCount) : c ∉ (toString count).toList := by
  cases count with
  | fixed n => exact Json.Literal.notMem_toList_repr hc n
  | dynamic =>
    intro hmem
    have hletters : ∀ a ∈ "dynamic".toList, a.isAlpha := by simp
    rw [hletters c hmem] at hletter
    cases hletter

theorem repr_ne_dynamic (n : Nat) : Nat.repr n ≠ "dynamic" := by
  intro h
  have hmem : 'd' ∈ (Nat.repr n).toList := by
    simp [h]
  exact Json.Literal.notMem_toList_repr (by decide) n hmem

/-- Two row counts with the same text are the same. -/
theorem toString_inj {a b : RowCount} : toString a = toString b ↔ a = b := by
  refine ⟨fun h => ?_, congrArg toString⟩
  cases a with
  | fixed m =>
    cases b with
    | fixed n => rw [Json.Literal.repr_inj.mp h]
    | dynamic => exact absurd h (repr_ne_dynamic m)
  | dynamic =>
    cases b with
    | fixed n => exact absurd h.symm (repr_ne_dynamic n)
    | dynamic => rfl

end RowCount

namespace Mismatch

/-- What a conversion refuses a dense vector for: the counts that do not fit together. -/
inductive Cause where
  | wrongSize (expected : RowCount) (actual : Nat)
  | ambiguousSplit (rows : Nat)
  | splitOutOfRange (split rows : Nat)
  deriving DecidableEq, Repr

/-- The mismatch that a conversion makes of a cause. -/
def ofCause : Cause → Mismatch
  | .wrongSize expected actual => wrongSize (toString expected) (Nat.repr actual)
  | .ambiguousSplit rows => ambiguousSplit rows
  | .splitOutOfRange split rows => splitOutOfRange split rows

/-! ## Texts between fixed words -/

theorem takeWhile_append_cons {xs : List Char} {c : Char} (hc : c ∉ xs) (rest : List Char) :
    (xs ++ c :: rest).takeWhile (· != c) = xs := by
  have hxs : ∀ a ∈ xs, (a != c) = true := by
    intro a ha
    rw [bne_iff_ne]
    rintro rfl
    exact hc ha
  rw [List.takeWhile_append_of_pos hxs, List.takeWhile_cons, bne_self_eq_false,
    if_neg Bool.false_ne_true, List.append_nil]

/-- A text between an opening and a separator is told from what follows, if the character that the
separator begins with is not in it. -/
theorem framed_inj {opening s t separator u v : String} {c : Char} {cs : List Char}
    (hseparator : separator.toList = c :: cs) (hs : c ∉ s.toList) (ht : c ∉ t.toList) :
    opening ++ s ++ separator ++ u = opening ++ t ++ separator ++ v ↔ s = t ∧ u = v := by
  constructor
  · intro h
    have hlist := congrArg String.toList h
    simp only [String.toList_append, hseparator, List.append_assoc, List.cons_append,
      List.append_right_inj] at hlist
    have hst : s.toList = t.toList := by
      rw [← takeWhile_append_cons hs, hlist, takeWhile_append_cons ht]
    rw [hst, List.append_right_inj, List.cons_inj_right, List.append_right_inj] at hlist
    exact ⟨String.toList_inj.mp hst, String.toList_inj.mp hlist⟩
  · rintro ⟨rfl, rfl⟩
    rfl

/-! ## One kind of mismatch -/

theorem message_wrongSize (expected actual : String) :
    (wrongSize expected actual).message
      = "Dimension mismatch: expected " ++ expected ++ ", got " ++ actual := rfl

theorem message_ambiguousSplit (rows : Nat) :
    (ambiguousSplit rows).message
      = "Ambiguous split of " ++ Nat.repr rows
        ++ " rows between two dynamically sized vectors" := rfl

theorem message_splitOutOfRange (split rows : Nat) :
    (splitOutOfRange split rows).message
      = "Split point " ++ Nat.repr split ++ " is out of range for " ++ Nat.repr rows
        ++ " rows" := rfl

/-- The letter that the text of a mismatch begins with. -/
def initial : Mismatch → Char
  | wrongSize .. => 'D'
  | ambiguousSplit .. => 'A'
  | splitOutOfRange .. => 'S'

theorem head?_message (e : Mismatch) : e.message.toList.head? = some e.initial := by
  cases e with
  | wrongSize => simp [message_wrongSize, initial]
  | ambiguousSplit => simp [message_ambiguousSplit, initial]
  | splitOutOfRange => simp [message_splitOutOfRange, initial]

theorem initial_eq_of_message_eq {e e' : Mismatch} (h : e.message = e'.message) :
    e.initial = e'.initial := by
  rw [← Option.some_inj, ← head?_message, ← head?_message, h]

theorem message_wrongSize_inj {expected expected' : RowCount} {actual actual' : Nat} :
    (wrongSize (toString expected) (Nat.repr actual)).message
        = (wrongSize (toString expected') (Nat.repr actual')).message ↔
      expected = expected' ∧ actual = actual' := by
  have hcomma (count : RowCount) : ',' ∉ (toString count).toList :=
    count.notMem_toList_toString (by decide) (by decide)
  rw [message_wrongSize, message_wrongSize,
    framed_inj (show ", got ".toList = ',' :: " got ".toList by simp) (hcomma _) (hcomma _),
    RowCount.toString_inj, Json.Literal.repr_inj]

theorem message_ambiguousSplit_inj {rows rows' : Nat} :
    (ambiguousSplit rows).message = (ambiguousSplit rows').message ↔ rows = rows' := by
  rw [message_ambiguousSplit, message_ambiguousSplit, String.append_left_inj,
    String.append_right_inj, Json.Literal.repr_inj]

theorem message_splitOutOfRange_inj {split split' rows rows' : Nat} :
    (splitOutOfRange split rows).message = (splitOutOfRange split' rows').message ↔
      split = split' ∧ rows = rows' := by
  have hblank (n : Nat) : ' ' ∉ (Nat.repr n).toList := Json.Literal.notMem_toList_repr (by decide) n
  rw [message_splitOutOfRange, message_splitOutOfRange, String.append_left_inj,
    framed_inj
      (show " is out of range for ".toList = ' ' :: "is out of range for ".toList by simp)
      (hblank _) (hblank _),
    Json.Literal.repr_inj, Json.Literal.repr_inj]

/-! ## All kinds -/

/-- **The text tells the cause.** -/
theorem cause_eq_of_message_eq {p q : Cause} (h : (ofCause p).message = (ofCause q).message) :
    p = q := by
  have hinitial := initial_eq_of_message_eq h
  cases p with
  | wrongSize expected actual =>
    cases q with
    | wrongSize expected' actual' =>
      obtain ⟨rfl, rfl⟩ := message_wrongSize_inj.mp h
      rfl
    | ambiguousSplit => cases hinitial
    | splitOutOfRange => cases hinitial
  | ambiguousSplit rows =>
    cases q with
    | wrongSize => cases hinitial
    | ambiguousSplit rows' => rw [message_ambiguousSplit_inj.mp h]
    | splitOutOfRange => cases hinitial
  | splitOutOfRange split rows =>
    cases q with
    | wrongSize => cases hinitial
    | ambiguousSplit => cases hinitial
    | splitOutOfRange split' rows' =>
      obtain ⟨rfl, rfl⟩ := message_splitOutOfRange_inj.mp h
      rfl

/--
**The text of a mismatch tells its kind and its counts.**

Of two mismatches that a conversion can make, the texts are equal just where the mismatches are, and
they are equal just where they come from the same counts in the same way.
-/
theorem message_tells_cause (p q : Cause) :
    ((ofCause p).message = (ofCause q).message ↔ ofCause p = ofCause q) ∧
    (ofCause p = ofCause q ↔ p = q) := by
  refine ⟨⟨fun h => ?_, congrArg message⟩, ⟨fun h => ?_, congrArg ofCause⟩⟩
  · rw [cause_eq_of_message_eq h]
  · exact cause_eq_of_message_eq (congrArg message h)

/-- With other texts in place of the counts, two mismatches can have one text. -/
example : (wrongSize "1, got 2" "3").message = (wrongSize "1" "2, got 3").message := rfl

end Mismatch

/-! ## Refusals -/

/-- A mismatch that comes from counts. -/
def Mismatch.HasCause (e : Mismatch) : Prop := ∃ p, Mismatch.ofCause p = e

theorem Mismatch.HasCause.eq_of_message_eq {e e' : Mismatch} (he : e.HasCause) (he' : e'.HasCause)
    (h : e.message = e'.message) : e = e' := by
  obtain ⟨p, rfl⟩ := he
  obtain ⟨q, rfl⟩ := he'
  rw [cause_eq_of_message_eq h]

namespace Stacked

variable {α : Type u} {F a b : Family} {xs : List α} {e : Mismatch}

theorem hasCause_of_tryPair {first : List α → Attempt (Stacked α a)}
    {second : List α → Attempt (Stacked α b)}
    (hfirst : ∀ ys e, (first ys).outcome = .error e → e.HasCause)
    (hsecond : ∀ ys e, (second ys).outcome = .error e → e.HasCause) {split : Nat}
    (h : (tryPair first second xs split).outcome = .error e) : e.HasCause := by
  rcases outcome_tryPair_eq_error_iff.mp h with ⟨-, rfl⟩ | ⟨-, hu | ⟨-, hw⟩⟩
  · exact ⟨.splitOutOfRange split xs.length, rfl⟩
  · exact hfirst _ _ hu
  · exact hsecond _ _ hw

/-- **Every refusal comes from counts that were compared.** -/
theorem hasCause_of_refusal (h : (tryFromDense F xs).outcome = .error e) : e.HasCause := by
  induction F generalizing xs e with
  | leaf l =>
    unfold tryFromDense at h
    split at h
    · cases h
    · cases h
      exact ⟨.wrongSize l.rows xs.length, rfl⟩
  | pair a b iha ihb =>
    rw [tryFromDense_pair] at h
    split at h
    · cases hsplit : a.staticSplit b xs.length with
      | none =>
        rw [hsplit] at h
        cases h
        exact ⟨.ambiguousSplit xs.length, rfl⟩
      | some split =>
        rw [hsplit] at h
        exact hasCause_of_tryPair (fun _ _ => iha) (fun _ _ => ihb) h
    · cases h
      exact ⟨.wrongSize (a.rows + b.rows) xs.length, rfl⟩

theorem hasCause_of_split_refusal {split : Nat}
    (h : (tryFromDenseSplit a b xs split).outcome = .error e) : e.HasCause :=
  hasCause_of_tryPair (fun _ _ => hasCause_of_refusal) (fun _ _ => hasCause_of_refusal) h

/-- **Two refusals with the same text are the same**, whatever was refused and for which family. -/
theorem refusal_eq_of_message_eq {G : Family} {ys : List α} {e' : Mismatch}
    (h : (tryFromDense F xs).outcome = .error e) (h' : (tryFromDense G ys).outcome = .error e')
    (hmessage : e.message = e'.message) : e = e' :=
  (hasCause_of_refusal h).eq_of_message_eq (hasCause_of_refusal h') hmessage

end Stacked

end BlockVector
