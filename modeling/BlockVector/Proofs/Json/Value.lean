import BlockVector.Json.Reader
import BlockVector.Json.Writer
import BlockVector.Proofs.Json.Token

/-!
# Reading undoes writing

A value keeps all that its tokens tell, so the reader of tokens and the writer of tokens are inverse
to each other (`Json.ofTokens?_eq_some_iff`). With the spellings of tokens this says which texts are
read, and as what (`Json.ofText?_eq_some_iff`), and that what is written is read back
(`Json.ofText?_text`).

The reader keeps the open brackets on a stack. What it has read so far is the tokens that the stack
stands for (`opened`), and this is the invariant of its two functions.
-/

namespace BlockVector.Json

/-! ## From tokens to values and back -/

/-- The tokens of a member of an object. -/
def memberHead (m : Option String × Json) : List Token := .string m.1 :: .colon :: m.2.tokens

/-- The tokens that an open bracket stands for, up to the value being read. -/
def Frame.opened : Frame → List Token
  | .array items => .openBracket :: items.reverse.flatMap fun v => v.tokens ++ [.comma]
  | .object members key =>
    .openBrace :: (members.reverse.flatMap fun m => memberHead m ++ [.comma])
      ++ [.string key, .colon]

/-- The tokens that the open brackets stand for, up to the value being read. -/
def opened (stack : List Frame) : List Token := stack.reverse.flatMap Frame.opened

theorem opened_cons (frame : Frame) (stack : List Frame) :
    opened (frame :: stack) = opened stack ++ frame.opened := by
  simp [opened]

theorem itemTokens_append (items : List Json) (v : Json) :
    itemTokens (items ++ [v])
      = .comma :: (items.flatMap fun v => v.tokens ++ [.comma]) ++ v.tokens ++ [.closeBracket] := by
  induction items with
  | nil => simp [itemTokens]
  | cons x items ih => simp [itemTokens, ih]

theorem memberTokens_append (members : List (Option String × Json)) (m : Option String × Json) :
    memberTokens (members ++ [m])
      = .comma :: (members.flatMap fun m => memberHead m ++ [.comma]) ++ memberHead m
        ++ [.closeBrace] := by
  induction members with
  | nil => simp [memberTokens, memberHead]
  | cons x members ih => simp [memberTokens, memberHead, ih]

/-- An array is written as what is open before its last item, this item, and the closing bracket. -/
theorem tokens_array_reverse (items : List Json) (v : Json) :
    (array (v :: items).reverse).tokens
      = (Frame.array items).opened ++ v.tokens ++ [.closeBracket] := by
  rw [List.reverse_cons, Frame.opened]
  cases items.reverse with
  | nil => simp [tokens, itemTokens]
  | cons x items => simp [tokens, itemTokens_append]

/-- An object is written as what is open before its last value, this value, and the closing
bracket. -/
theorem tokens_object_reverse (members : List (Option String × Json)) (key : Option String)
    (v : Json) : (object ((key, v) :: members).reverse).tokens
      = (Frame.object members key).opened ++ v.tokens ++ [.closeBrace] := by
  rw [List.reverse_cons, Frame.opened]
  cases members.reverse with
  | nil => simp [tokens, memberTokens]
  | cons x members => simp [tokens, memberTokens_append, memberHead]

mutual

/-- **The value read has the tokens that were read**, those of the open brackets included. -/
theorem tokens_of_readValue {stack : List Frame} {ts : List Token} {w : Json}
    (h : readValue stack ts = some w) : w.tokens = opened stack ++ ts := by
  unfold readValue at h
  split at h
  · exact tokens_of_readRest h
  · exact tokens_of_readRest h
  · exact tokens_of_readRest h
  · exact tokens_of_readRest h
  · have := tokens_of_readRest h
    simpa [tokens] using this
  · have := tokens_of_readValue h
    simpa [opened_cons, Frame.opened] using this
  · have := tokens_of_readRest h
    simpa [tokens] using this
  · have := tokens_of_readValue h
    simpa [opened_cons, Frame.opened] using this
  · cases h
termination_by ts.length

theorem tokens_of_readRest {stack : List Frame} {v : Json} {ts : List Token} {w : Json}
    (h : readRest stack v ts = some w) : w.tokens = opened stack ++ (v.tokens ++ ts) := by
  unfold readRest at h
  split at h
  · cases h
    simp [opened]
  · have := tokens_of_readValue h
    simpa [opened_cons, Frame.opened] using this
  · have := tokens_of_readRest h
    rw [tokens_array_reverse] at this
    simpa [opened_cons] using this
  · have := tokens_of_readValue h
    simpa [opened_cons, Frame.opened, memberHead] using this
  · have := tokens_of_readRest h
    rw [tokens_object_reverse] at this
    simpa [opened_cons] using this
  · cases h
termination_by ts.length

end

/-- No value begins with a closing bracket. -/
theorem exists_head_tokens (v : Json) : ∃ t ts, v.tokens = t :: ts ∧ t ≠ .closeBracket := by
  match v with
  | null => exact ⟨_, _, by rw [tokens], by simp⟩
  | bool b => exact ⟨_, _, by rw [tokens], by simp⟩
  | number l => exact ⟨_, _, by rw [tokens], by simp⟩
  | string text => exact ⟨_, _, by rw [tokens], by simp⟩
  | array [] => exact ⟨_, _, by rw [tokens], by simp⟩
  | array (v :: items) => exact ⟨_, _, by rw [tokens], by simp⟩
  | object [] => exact ⟨_, _, by rw [tokens], by simp⟩
  | object ((key, v) :: members) => exact ⟨_, _, by rw [tokens], by simp⟩

/-- After an opening bracket a value must begin, unless the bracket is closed at once. -/
theorem readValue_openBracket (stack : List Frame) (v : Json) (ts : List Token) :
    readValue stack (.openBracket :: (v.tokens ++ ts))
      = readValue (.array [] :: stack) (v.tokens ++ ts) := by
  obtain ⟨t, rest, htokens, ht⟩ := exists_head_tokens v
  rw [htokens, List.cons_append, readValue]
  rintro u hu
  exact ht (List.cons.inj hu).1

mutual

/-- **A value is read from its tokens**, whatever is open around it and follows it. -/
theorem readValue_tokens (v : Json) (stack : List Frame) (ts : List Token) :
    readValue stack (v.tokens ++ ts) = readRest stack v ts := by
  match v with
  | null => simp only [tokens, List.singleton_append, readValue]
  | bool b => simp only [tokens, List.singleton_append, readValue]
  | number l => simp only [tokens, List.singleton_append, readValue]
  | string text => simp only [tokens, List.singleton_append, readValue]
  | array [] => simp only [tokens, List.cons_append, List.nil_append, readValue]
  | array (v :: items) =>
    rw [tokens, List.cons_append, List.append_assoc, readValue_openBracket, readValue_tokens v,
      readRest_itemTokens items]
    rfl
  | object [] => simp only [tokens, List.cons_append, List.nil_append, readValue]
  | object ((key, v) :: members) =>
    rw [tokens, List.cons_append, List.cons_append, List.cons_append, List.append_assoc, readValue,
      readValue_tokens v, readRest_memberTokens members]
    rfl

theorem readRest_itemTokens (items : List Json) (before : List Json) (v : Json)
    (stack : List Frame) (ts : List Token) :
    readRest (.array before :: stack) v (itemTokens items ++ ts)
      = readRest stack (.array ((v :: before).reverse ++ items)) ts := by
  match items with
  | [] => rw [itemTokens, List.singleton_append, readRest, List.append_nil]
  | x :: items =>
    rw [itemTokens, List.cons_append, List.append_assoc, readRest, readValue_tokens x,
      readRest_itemTokens items, List.reverse_cons, List.append_assoc, List.singleton_append]

theorem readRest_memberTokens (members : List (Option String × Json))
    (before : List (Option String × Json)) (key : Option String) (v : Json) (stack : List Frame)
    (ts : List Token) :
    readRest (.object before key :: stack) v (memberTokens members ++ ts)
      = readRest stack (.object (((key, v) :: before).reverse ++ members)) ts := by
  match members with
  | [] => rw [memberTokens, List.singleton_append, readRest, List.append_nil]
  | (next, x) :: members =>
    rw [memberTokens, List.cons_append, List.cons_append, List.cons_append, List.append_assoc,
      readRest, readValue_tokens x, readRest_memberTokens members, List.reverse_cons,
      List.append_assoc, List.singleton_append]

end

/-- **Tokens are read as the value that is written with them**, and others are not read. -/
theorem ofTokens?_eq_some_iff {ts : List Token} {v : Json} :
    ofTokens? ts = some v ↔ v.tokens = ts := by
  constructor
  · intro h
    exact tokens_of_readValue h
  · rintro rfl
    have h := readValue_tokens v [] []
    rwa [List.append_nil] at h

/-! ## Which texts are read -/

theorem head_itemTokens (items : List Json) (ts : List Token) :
    ∀ t ∈ (itemTokens items ++ ts).head?, t.isNumber = false := by
  cases items <;> simp [itemTokens, Token.isNumber]

theorem head_memberTokens (members : List (Option String × Json)) (ts : List Token) :
    ∀ t ∈ (memberTokens members ++ ts).head?, t.isNumber = false := by
  cases members <;> simp [memberTokens, Token.isNumber]

mutual

/-- **No two numbers of a value are neighbours**: a comma or a bracket follows each of them. -/
theorem separated_tokens (v : Json) {ts : List Token} (hts : Token.Separated ts)
    (hhead : ∀ t ∈ ts.head?, t.isNumber = false) : Token.Separated (v.tokens ++ ts) := by
  match v with
  | null => exact ⟨nofun, hts⟩
  | bool b => exact ⟨nofun, hts⟩
  | number l => exact ⟨fun _ => hhead, hts⟩
  | string text => exact ⟨nofun, hts⟩
  | array [] => exact ⟨nofun, nofun, hts⟩
  | array (v :: items) =>
    rw [tokens, List.cons_append, List.append_assoc]
    exact ⟨nofun, separated_tokens v (separated_itemTokens items hts) (head_itemTokens items ts)⟩
  | object [] => exact ⟨nofun, nofun, hts⟩
  | object ((key, v) :: members) =>
    rw [tokens, List.cons_append, List.cons_append, List.cons_append, List.append_assoc]
    exact ⟨nofun, nofun, nofun,
      separated_tokens v (separated_memberTokens members hts) (head_memberTokens members ts)⟩

theorem separated_itemTokens (items : List Json) {ts : List Token} (hts : Token.Separated ts) :
    Token.Separated (itemTokens items ++ ts) := by
  match items with
  | [] => exact ⟨nofun, hts⟩
  | v :: items =>
    rw [itemTokens, List.cons_append, List.append_assoc]
    exact ⟨nofun, separated_tokens v (separated_itemTokens items hts) (head_itemTokens items ts)⟩

theorem separated_memberTokens (members : List (Option String × Json)) {ts : List Token}
    (hts : Token.Separated ts) : Token.Separated (memberTokens members ++ ts) := by
  match members with
  | [] => exact ⟨nofun, hts⟩
  | (key, v) :: members =>
    rw [memberTokens, List.cons_append, List.cons_append, List.cons_append, List.append_assoc]
    exact ⟨nofun, nofun, nofun,
      separated_tokens v (separated_memberTokens members hts) (head_memberTokens members ts)⟩

end

/-- **A text is read as a value just where it spells the tokens of the value.** -/
theorem ofText?_eq_some_iff {s : String} {v : Json} :
    ofText? s = some v ↔ Spaced (v.tokens.map Token.Spells) s.toList := by
  rw [ofText?, Option.bind_eq_some_iff]
  constructor
  · rintro ⟨ts, hts, hv⟩
    rw [ofTokens?_eq_some_iff.mp hv]
    exact Token.spaced_of_ofText? hts
  · intro h
    have hseparated : Token.Separated (v.tokens ++ []) := separated_tokens v trivial nofun
    rw [List.append_nil] at hseparated
    exact ⟨v.tokens, Token.ofText?_of_spaced h hseparated, ofTokens?_eq_some_iff.mpr rfl⟩

/-! ## Reading what was written -/

/-- A value that can be written: all its tokens can be. -/
def IsWritable (v : Json) : Prop := ∀ t ∈ v.tokens, t.IsWritable

theorem isWritable_null : null.IsWritable := by
  simp [IsWritable, tokens, Token.IsWritable]

theorem isWritable_number {l : Literal} (hl : l.IsProper) : (number l).IsWritable := by
  simpa [IsWritable, tokens, Token.IsWritable] using hl

theorem isWritable_ofString (text : String) : (ofString text).IsWritable := by
  simp [IsWritable, ofString, tokens, Token.IsWritable]

theorem isWritable_itemTokens {items : List Json} (h : ∀ v ∈ items, v.IsWritable) :
    ∀ t ∈ itemTokens items, t.IsWritable := by
  induction items with
  | nil => simp [itemTokens, Token.IsWritable]
  | cons v items ih =>
    obtain ⟨hv, hitems⟩ := List.forall_mem_cons.mp h
    rw [itemTokens, List.forall_mem_cons, List.forall_mem_append]
    exact ⟨trivial, hv, ih hitems⟩

theorem isWritable_array {items : List Json} (h : ∀ v ∈ items, v.IsWritable) :
    (array items).IsWritable := by
  cases items with
  | nil => simp [IsWritable, tokens, Token.IsWritable]
  | cons v items =>
    obtain ⟨hv, hitems⟩ := List.forall_mem_cons.mp h
    rw [IsWritable, tokens, List.forall_mem_cons, List.forall_mem_append]
    exact ⟨trivial, hv, isWritable_itemTokens hitems⟩

theorem isWritable_memberTokens {members : List (Option String × Json)}
    (h : ∀ m ∈ members, m.1.isSome ∧ m.2.IsWritable) :
    ∀ t ∈ memberTokens members, t.IsWritable := by
  induction members with
  | nil => simp [memberTokens, Token.IsWritable]
  | cons m members ih =>
    obtain ⟨hm, hmembers⟩ := List.forall_mem_cons.mp h
    rw [memberTokens, List.forall_mem_cons, List.forall_mem_cons, List.forall_mem_cons,
      List.forall_mem_append]
    exact ⟨trivial, hm.1, trivial, hm.2, ih hmembers⟩

theorem isWritable_ofMembers {members : List (String × Json)} (h : ∀ m ∈ members, m.2.IsWritable) :
    (ofMembers members).IsWritable := by
  cases members with
  | nil => simp [IsWritable, ofMembers, tokens, Token.IsWritable]
  | cons m members =>
    obtain ⟨hm, hmembers⟩ := List.forall_mem_cons.mp h
    rw [IsWritable, ofMembers, List.map_cons, tokens, List.forall_mem_cons, List.forall_mem_cons,
      List.forall_mem_cons, List.forall_mem_append]
    refine ⟨trivial, rfl, trivial, hm, isWritable_memberTokens ?_⟩
    rintro m hmem
    obtain ⟨m, hm, rfl⟩ := List.mem_map.mp hmem
    exact ⟨rfl, hmembers m hm⟩

/-- **What is written is read back.** -/
theorem ofText?_text {v : Json} (hv : v.IsWritable) : ofText? v.text = some v := by
  rw [ofText?_eq_some_iff, text, String.toList_ofList]
  exact Token.spaced_flatMap_text hv

end BlockVector.Json
