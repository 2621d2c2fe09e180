import TrafficSheet.Json.Reader
import TrafficSheet.Proofs.Decimal.Texts

/-!
# JSON is read back

The text of a value, in one line or indented, is read back as the tree of the value
(`read?_render`). It is split into the tokens of the value first, whatever follows
(`splits_render`), and these are put together bracket by bracket (`foldlM_tokens`). Texts and whole
numbers are read back as they are. A number in floating point is read as a decimal that rounds to
it, or as nothing if it is not finite (`isReal_realTree`).
-/

namespace TrafficSheet.Json

open Decimal

variable {cs rest : List Char} {layout : Layout}

/-! ### Texts between quotes -/

theorem readText?_plain {c : Char} (hquote : c ≠ '"') (hbackslash : c ≠ '\\')
    (hlow : ¬c.toNat < 32) (rest : List Char) :
    readText? (c :: rest) = (readText? rest).map (prepend c) := by
  rw [readText?, if_neg hquote, if_neg hbackslash, if_neg hlow]

theorem readText?_escape {c : Char} (h : readEscape? cs = some (c, rest)) :
    readText? ('\\' :: cs) = (readText? rest).map (prepend c) := by
  rw [readText?, if_neg (by decide), if_pos rfl]
  split <;> simp_all

/-- The number of a control character is read back from its digits. -/
theorem readEscape?_hexPair {n : Nat} (hn : n < 32) (rest : List Char) :
    readEscape? ('u' :: '0' :: '0' :: ((Bytes.hexPair (UInt8.ofNat n)).toList ++ rest)) =
      some (Char.ofNat n, rest) := by
  interval_cases n <;> rfl

/-- **A character** is read back, whatever comes after it. -/
theorem readText?_escape_append (c : Char) (rest : List Char) :
    readText? (escape c ++ rest) = (readText? rest).map (prepend c) := by
  unfold escape
  split
  case h_8 hquote hbackslash _ _ _ _ _ =>
    split
    · rename_i hlow
      rw [List.cons_append, List.cons_append]
      refine readText?_escape ?_
      have hread := readEscape?_hexPair hlow rest
      rw [Char.ofNat_toNat] at hread
      exact hread
    · rename_i hhigh
      exact readText?_plain hquote hbackslash hhigh rest
  all_goals exact readText?_escape rfl

/-- **Texts** are read back up to the quote that closes them. -/
theorem readText?_quoted (text rest : List Char) :
    readText? (text.flatMap escape ++ '"' :: rest) = some (text, rest) := by
  induction text with
  | nil =>
    rw [List.flatMap_nil, List.nil_append, readText?, if_pos rfl]
  | cons c text ih =>
    rw [List.flatMap_cons, List.append_assoc, readText?_escape_append, ih]
    rfl

/-! ### Tokens one by one -/

/-- What comes after a word ends it. -/
def EndsWord (rest : List Char) : Prop := ∀ c ∈ rest.head?, isWordPart c = false

theorem endsWord_cons {c : Char} (h : isWordPart c = false) (rest : List Char) :
    EndsWord (c :: rest) := by
  rintro _ ⟨⟩
  exact h

theorem tokens?_blank {c : Char} (h : isBlank c = true) (rest : List Char) :
    tokens? (c :: rest) = tokens? rest := by
  rw [tokens?, if_pos h]

theorem tokens?_blanks {blanks : List Char} (h : ∀ c ∈ blanks, isBlank c = true)
    (rest : List Char) : tokens? (blanks ++ rest) = tokens? rest := by
  induction blanks with
  | nil => rfl
  | cons c blanks ih =>
    obtain ⟨hc, hblanks⟩ := List.forall_mem_cons.mp h
    rw [List.cons_append, tokens?_blank hc, ih hblanks]

theorem tokens?_mark {c : Char} {token : Token} (hblank : isBlank c = false)
    (h : mark? c = some token) (rest : List Char) :
    tokens? (c :: rest) = (tokens? rest).map (token :: ·) := by
  rw [tokens?, hblank, h]
  rfl

theorem tokens?_quoted (s : String) (rest : List Char) :
    tokens? ((quoted s).toList ++ rest) = (tokens? rest).map (.text s :: ·) := by
  have hread := readText?_quoted s.toList rest
  have hquoted : (quoted s).toList ++ rest = '"' :: (s.toList.flatMap escape ++ '"' :: rest) := by
    rw [quoted, String.toList_ofList, List.cons_append, List.append_assoc]
    rfl
  rw [hquoted, tokens?, if_neg (by decide), show mark? '"' = none from rfl]
  dsimp only
  rw [if_pos rfl]
  split
  · simp_all
  · rename_i hread'
    rw [hread] at hread'
    cases hread'
    rw [String.ofList_toList]

theorem tokens?_word (hne : cs ≠ []) (hcs : ∀ c ∈ cs, isWordPart c = true) (hrest : EndsWord rest) :
    tokens? (cs ++ rest) = (tokens? rest).map (.word cs :: ·) := by
  obtain ⟨c, cs, rfl⟩ := List.exists_cons_of_ne_nil hne
  obtain ⟨hc, hcs⟩ := List.forall_mem_cons.mp hcs
  have htake : (cs ++ rest).takeWhile isWordPart = cs := by
    rw [List.takeWhile_append_of_pos hcs]
    cases rest with
    | nil => exact List.append_nil cs
    | cons c rest => rw [List.takeWhile_cons_of_neg (by simpa using hrest c rfl), List.append_nil]
  have hdrop : (cs ++ rest).dropWhile isWordPart = rest := by
    rw [List.dropWhile_append_of_pos hcs]
    cases rest with
    | nil => rfl
    | cons c rest => exact List.dropWhile_cons_of_neg (by simpa using hrest c rfl)
  obtain ⟨⟨hblank, hmark⟩, hquote⟩ : (isBlank c = false ∧ mark? c = none) ∧ c ≠ '"' := by
    simpa [isWordPart] using hc
  rw [List.cons_append, tokens?, hblank, hmark]
  simp only [Bool.false_eq_true, if_false]
  rw [if_neg hquote, htake, hdrop]

/-! ### Words -/

theorem isWordPart_of_isNumeric {c : Char} (h : isNumeric c = true) : isWordPart c = true := by
  rw [isNumeric, Bool.or_eq_true, Char.isDigit_iff_toNat] at h
  rcases h with ⟨hlow, hhigh⟩ | hletter
  · have hzero : '0'.toNat = 48 := rfl
    have hnine : '9'.toNat = 57 := rfl
    rw [← Char.ofNat_toNat c]
    rw [hzero] at hlow
    rw [hnine] at hhigh
    interval_cases c.toNat <;> decide
  · revert c
    simp only [List.contains_iff_mem, List.mem_cons, List.not_mem_nil, or_false]
    rintro _ (rfl | rfl | rfl | rfl | rfl | rfl | rfl | rfl) <;> decide

/-- The bits of a number are those of a finite one, unless all bits of the exponent are set. -/
theorem exists_finite_ofBits {f : BinaryFormat} {bits : Nat}
    (h : bits / power 2 f.fractionBits % power 2 f.exponentBits ≠ power 2 f.exponentBits - 1) :
    ∃ negative m, Number.ofBits f bits = .finite negative m := by
  unfold Number.ofBits
  dsimp only
  rw [if_neg h]
  split
  · exact ⟨_, _, rfl⟩
  · exact ⟨_, _, rfl⟩

theorem not_isFinite_of_exponent {x : Float} (h : x.toBits.toNat / 2 ^ 52 % 2 ^ 11 = 2047) :
    x.isFinite = false := by
  have hexponent : @Float.Model.UnpackedFloat.unpackExponent .binary64
      x.toModel.toBits.toBitVec = -1#11 := by
    apply BitVec.eq_of_toNat_eq
    simp only [Float.Model.UnpackedFloat.unpackExponent, BitVec.toNat_cast, BitVec.extractLsb_toNat,
      Nat.shiftRight_eq_div_pow]
    exact h
  have hunpack : x.toModel.unpack.isFinite = false := by
    unfold Float.Model.unpack Float.Model.UnpackedFloat.unpack
    dsimp only
    rw [if_pos hexponent]
    split <;> rfl
  exact hunpack

/-- A finite number has the bits of one. -/
theorem exists_finite_of_isFinite {x : Float} (h : x.isFinite = true) :
    ∃ negative m, Number.ofFloat x = .finite negative m := by
  refine exists_finite_ofBits fun hall => ?_
  rw [not_isFinite_of_exponent hall] at h
  cases h

/-- What is read from the text of a number in floating point. -/
def realTree (x : Float) : Tree := (Tree.ofWord? (numberText x).toList).getD .null

/-- What is read says the number: a decimal that rounds to it, or nothing if it is not finite. -/
inductive Tree.IsReal : Tree → Float → Prop where
  /-- A decimal that rounds to the number. -/
  | finite {negative : Bool} {d : Scientific} {x : Float} :
      x.isFinite = true → (Figure.decimal negative d).RoundsTo (.ofFloat x) →
      IsReal (.number negative d) x
  /-- Nothing. -/
  | null {x : Float} : x.isFinite = false → IsReal .null x

theorem Tree.ofWord?_null : Tree.ofWord? "null".toList = some .null := if_pos rfl

/-- **A number in floating point** is read back. -/
theorem exists_ofWord?_numberText (x : Float) :
    ∃ t, Tree.ofWord? (numberText x).toList = some t ∧ t.IsReal x := by
  unfold numberText
  split
  · rename_i hfinite
    obtain ⟨negative, m, hnumber⟩ := exists_finite_of_isFinite hfinite
    obtain ⟨f, hread, hf⟩ := Number.exists_figure_text numberStyle rfl rfl (.ofFloat x)
    have hword : ((Number.ofFloat x).text numberStyle).toList ≠ "null".toList := by
      intro hnull
      rw [hnull, show Figure.read? "null".toList = none by decide] at hread
      cases hread
    rw [Tree.ofWord?, if_neg hword, hread]
    cases f with
    | decimal negative d => exact ⟨_, rfl, .finite hfinite hf⟩
    | infinite negative =>
      rw [hnumber] at hf
      cases hf
    | nan =>
      rw [hnumber] at hf
      cases hf
  · rename_i hfinite
    exact ⟨_, Tree.ofWord?_null, .null (by simpa using hfinite)⟩

theorem ofWord?_numberText (x : Float) :
    Tree.ofWord? (numberText x).toList = some (realTree x) := by
  obtain ⟨t, ht, -⟩ := exists_ofWord?_numberText x
  rw [realTree, ht, Option.getD_some]

theorem isReal_realTree (x : Float) : (realTree x).IsReal x := by
  obtain ⟨t, ht, hreal⟩ := exists_ofWord?_numberText x
  rw [realTree, ht, Option.getD_some]
  exact hreal

theorem numeral_numberText (x : Float) : Numeral (numberText x).toList ∨ numberText x = "null" := by
  unfold numberText
  split
  · exact Or.inl (Number.numeral_text numberStyle rfl rfl _)
  · exact Or.inr rfl

theorem isWordPart_numberText (x : Float) :
    (numberText x).toList ≠ [] ∧ ∀ c ∈ (numberText x).toList, isWordPart c = true := by
  rcases numeral_numberText x with h | h
  · exact ⟨h.ne_nil, fun c hc => isWordPart_of_isNumeric (List.all_eq_true.mp h.numeric c hc)⟩
  · rw [h]
    exact ⟨by decide, List.all_eq_true.mp (by decide)⟩

/-- **A whole number** is read back. -/
theorem ofWord?_toString (n : Nat) : Tree.ofWord? (toString n).toList = some (.whole n) := by
  have hread := Figure.read?_toString n
  have hword : (toString n).toList ≠ "null".toList := by
    intro hnull
    rw [hnull, show Figure.read? "null".toList = none by decide] at hread
    cases hread
  rw [Tree.ofWord?, if_neg hword, hread]
  rfl

/-! ### The tree and the tokens of a value -/

mutual

/-- What is read from the text of a value. -/
def Value.tree : Value → Tree
  | .whole n => .whole n
  | .real x => realTree x
  | .text s => .text s
  | .list items => .list (treesOf items)
  | .object fields => .object (fieldTreesOf fields)

/-- What is read from the texts of values. -/
def treesOf : List Value → List Tree
  | [] => []
  | item :: items => item.tree :: treesOf items

/-- What is read from the texts of named values. -/
def fieldTreesOf : List (String × Value) → List (String × Tree)
  | [] => []
  | (name, value) :: fields => (name, value.tree) :: fieldTreesOf fields

end

mutual

/-- The tokens of a value. -/
def Value.tokens : Value → List Token
  | .whole n => [.word (toString n).toList]
  | .real x => [.word (numberText x).toList]
  | .text s => [.text s]
  | .list [] => [.opening .list, .closing .list]
  | .list (item :: items) => .opening .list :: (item.tokens ++ itemTokens items)
  | .object [] => [.opening .object, .closing .object]
  | .object ((name, value) :: fields) =>
    .opening .object :: .text name :: .colon :: (value.tokens ++ fieldTokens fields)

/-- The tokens of the values that follow in a list, and of its end. -/
def itemTokens : List Value → List Token
  | [] => [.closing .list]
  | item :: items => .comma :: (item.tokens ++ itemTokens items)

/-- The tokens of the fields that follow in an object, and of its end. -/
def fieldTokens : List (String × Value) → List Token
  | [] => [.closing .object]
  | (name, value) :: fields =>
    .comma :: .text name :: .colon :: (value.tokens ++ fieldTokens fields)

end

/-! ### Texts are split into tokens -/

/-- A text is split into tokens, whatever follows. -/
def Splits (text : List Char) (tokens : List Token) : Prop :=
  ∀ rest, EndsWord rest → tokens? (text ++ rest) = (tokens? rest).map (tokens ++ ·)

theorem isBlank_lineBreak (layout : Layout) (depth : Nat) :
    ∀ c ∈ (layout.lineBreak depth).toList, isBlank c = true := by
  cases layout with
  | compact => exact fun _ h => nomatch h
  | indented =>
    rw [Layout.lineBreak, String.toList_ofList]
    refine List.forall_mem_cons.mpr ⟨by decide, fun c hc => ?_⟩
    rw [List.eq_of_mem_replicate hc]
    decide

/-- What follows a name. -/
theorem tokens?_colon (layout : Layout) (rest : List Char) :
    tokens? (layout.colon.toList ++ rest) = (tokens? rest).map (.colon :: ·) := by
  cases layout with
  | compact => exact tokens?_mark rfl rfl rest
  | indented =>
    have hcolon : tokens? (Layout.indented.colon.toList ++ rest) = tokens? (':' :: ' ' :: rest) := rfl
    rw [hcolon, tokens?_mark rfl rfl, tokens?_blank rfl]

/-- The end of a bracket. -/
def closingText (layout : Layout) (depth : Nat) (closing : String) : List Char :=
  (layout.lineBreak depth).toList ++ closing.toList

/-- The items that follow in a bracket, and its end. -/
def followingText (layout : Layout) (depth : Nat) (closing : String) (items : List String) :
    List Char :=
  items.flatMap (fun item => ',' :: ((layout.lineBreak (depth + 1)).toList ++ item.toList)) ++
    closingText layout depth closing

/-- A bracket with an item in it. -/
theorem toList_enclose_cons (layout : Layout) (depth : Nat) (opening closing item : String)
    (items : List String) :
    (enclose layout depth opening closing (item :: items)).toList =
      opening.toList ++ ((layout.lineBreak (depth + 1)).toList ++
        (item.toList ++ followingText layout depth closing items)) := by
  have hcommas : ∀ (item : String) (items : List String),
      (",".intercalate ((item :: items).map (layout.lineBreak (depth + 1) ++ ·))).toList =
        ((layout.lineBreak (depth + 1)).toList ++ item.toList) ++ items.flatMap
          (fun item => ',' :: ((layout.lineBreak (depth + 1)).toList ++ item.toList)) := by
    intro item items
    induction items generalizing item with
    | nil => simp
    | cons next items ih =>
      rw [List.map_cons, List.map_cons, String.intercalate_cons_cons, String.toList_append,
        String.toList_append, ← List.map_cons, ih, List.flatMap_cons]
      simp
  unfold enclose
  rw [List.isEmpty_cons, if_neg Bool.false_ne_true, String.toList_append, String.toList_append,
    String.toList_append, hcommas]
  simp [followingText, closingText]

theorem endsWord_closingText (layout : Layout) (depth : Nat) {closing : String} {c : Char}
    (hclosing : closing.toList = [c]) (hc : isWordPart c = false) (rest : List Char) :
    EndsWord (closingText layout depth closing ++ rest) := by
  rw [closingText, hclosing]
  cases layout with
  | compact => exact endsWord_cons hc rest
  | indented =>
    rw [Layout.lineBreak, String.toList_ofList]
    exact endsWord_cons (by decide) _

theorem endsWord_followingText (layout : Layout) (depth : Nat) (closing : String) {c : Char}
    (hclosing : closing.toList = [c]) (hc : isWordPart c = false) (items : List String)
    (rest : List Char) : EndsWord (followingText layout depth closing items ++ rest) := by
  cases items with
  | nil => exact endsWord_closingText layout depth hclosing hc rest
  | cons item items => exact endsWord_cons (by decide) _

theorem tokens?_closingText (layout : Layout) (depth : Nat) {closing : String} {c : Char}
    {token : Token} (hclosing : closing.toList = [c]) (hblank : isBlank c = false)
    (hmark : mark? c = some token) (rest : List Char) :
    tokens? (closingText layout depth closing ++ rest) = (tokens? rest).map (token :: ·) := by
  rw [closingText, List.append_assoc, tokens?_blanks (isBlank_lineBreak layout depth), hclosing]
  exact tokens?_mark hblank hmark rest

/-- An item on its line. -/
theorem Splits.item {item : List Char} {tokens : List Token} (h : Splits item tokens)
    (layout : Layout) (depth : Nat) (hrest : EndsWord rest) :
    tokens? ((layout.lineBreak depth).toList ++ (item ++ rest)) =
      (tokens? rest).map (tokens ++ ·) := by
  rw [tokens?_blanks (isBlank_lineBreak layout depth), h rest hrest]

/-- A field: a name, a colon, and a value. -/
theorem Splits.field {value : String} {tokens : List Token} (h : Splits value.toList tokens)
    (layout : Layout) (name : String) :
    Splits (quoted name ++ layout.colon ++ value).toList (.text name :: .colon :: tokens) := by
  intro rest hrest
  rw [String.toList_append, String.toList_append, List.append_assoc, List.append_assoc,
    tokens?_quoted, tokens?_colon, h rest hrest, Option.map_map, Option.map_map]
  rfl

mutual

/-- **The text of a value** is split into the tokens of the value. -/
theorem splits_render (layout : Layout) (depth : Nat) :
    ∀ v : Value, Splits (v.render layout depth).toList v.tokens
  | .whole n => fun rest hrest => by
    have hnumeral := numeral_toString n
    exact tokens?_word hnumeral.ne_nil
      (fun c hc => isWordPart_of_isNumeric (List.all_eq_true.mp hnumeral.numeric c hc)) hrest
  | .real x => fun rest hrest =>
    tokens?_word (isWordPart_numberText x).1 (isWordPart_numberText x).2 hrest
  | .text s => fun rest _ => tokens?_quoted s rest
  | .list [] => fun rest _ => by
    have htext : (Value.render layout depth (.list [])).toList ++ rest = '[' :: ']' :: rest := by
      simp [Value.render, renderItems, enclose]
    rw [htext, tokens?_mark rfl rfl, tokens?_mark rfl rfl, Option.map_map]
    rfl
  | .object [] => fun rest _ => by
    have htext : (Value.render layout depth (.object [])).toList ++ rest =
        '\x7b' :: '\x7d' :: rest := by
      simp [Value.render, renderFields, enclose]
    rw [htext, tokens?_mark rfl rfl, tokens?_mark rfl rfl, Option.map_map]
    rfl
  | .list (item :: items) => fun rest hrest => by
    have hends := endsWord_followingText layout depth "]" rfl (by decide)
      (renderItems layout (depth + 1) items) rest
    rw [Value.render, renderItems, toList_enclose_cons, List.append_assoc, List.append_assoc,
      List.append_assoc]
    have hopening : ∀ cs, tokens? ("[".toList ++ cs) = (tokens? cs).map (.opening .list :: ·) :=
      fun cs => tokens?_mark rfl rfl cs
    rw [hopening, (splits_render layout (depth + 1) item).item layout (depth + 1) hends,
      splits_items layout depth items rest hrest, Option.map_map, Option.map_map, Value.tokens]
    simp [Function.comp_def]
  | .object ((name, value) :: fields) => fun rest hrest => by
    have hends := endsWord_followingText layout depth "\x7d" rfl (by decide)
      (renderFields layout (depth + 1) fields) rest
    rw [Value.render, renderFields, toList_enclose_cons, List.append_assoc, List.append_assoc,
      List.append_assoc]
    have hopening : ∀ cs, tokens? ("\x7b".toList ++ cs) =
        (tokens? cs).map (.opening .object :: ·) := fun cs => tokens?_mark rfl rfl cs
    rw [hopening, ((splits_render layout (depth + 1) value).field layout name).item layout
      (depth + 1) hends, splits_fields layout depth fields rest hrest, Option.map_map,
      Option.map_map, Value.tokens]
    simp [Function.comp_def]

/-- The values that follow in a list. -/
theorem splits_items (layout : Layout) (depth : Nat) : ∀ items : List Value,
    Splits (followingText layout depth "]" (renderItems layout (depth + 1) items))
      (itemTokens items)
  | [] => fun rest _ => tokens?_closingText layout depth rfl rfl rfl rest
  | item :: items => fun rest hrest => by
    have hends := endsWord_followingText layout depth "]" rfl (by decide)
      (renderItems layout (depth + 1) items) rest
    have hcomma : ∀ cs, tokens? (',' :: cs) = (tokens? cs).map (.comma :: ·) :=
      fun cs => tokens?_mark rfl rfl cs
    have hlater := splits_items layout depth items rest hrest
    rw [followingText] at hends hlater
    rw [followingText, renderItems, List.flatMap_cons, List.append_assoc, List.append_assoc,
      List.cons_append, List.append_assoc]
    rw [List.append_assoc] at hends hlater
    rw [hcomma, (splits_render layout (depth + 1) item).item layout (depth + 1) hends, hlater,
      Option.map_map, Option.map_map, itemTokens]
    simp [Function.comp_def]

/-- The fields that follow in an object. -/
theorem splits_fields (layout : Layout) (depth : Nat) : ∀ fields : List (String × Value),
    Splits (followingText layout depth "\x7d" (renderFields layout (depth + 1) fields))
      (fieldTokens fields)
  | [] => fun rest _ => tokens?_closingText layout depth rfl rfl rfl rest
  | (name, value) :: fields => fun rest hrest => by
    have hends := endsWord_followingText layout depth "\x7d" rfl (by decide)
      (renderFields layout (depth + 1) fields) rest
    have hcomma : ∀ cs, tokens? (',' :: cs) = (tokens? cs).map (.comma :: ·) :=
      fun cs => tokens?_mark rfl rfl cs
    have hlater := splits_fields layout depth fields rest hrest
    rw [followingText, List.append_assoc] at hends hlater
    rw [followingText, renderFields, List.flatMap_cons, List.append_assoc, List.append_assoc,
      List.cons_append, List.append_assoc]
    rw [hcomma, ((splits_render layout (depth + 1) value).field layout name).item layout
      (depth + 1) hends, hlater, Option.map_map, Option.map_map, fieldTokens]
    simp [Function.comp_def]

end

/-! ### Tokens are put together -/

open Progress (put step?)

/-- No value starts with the end of a list. -/
theorem foldlM_listStart (stack : List Open) (v : Value) (rest : List Token) :
    (v.tokens ++ rest).foldlM step? (.listStart stack) =
      (v.tokens ++ rest).foldlM step? (.value (.list [] :: stack)) := by
  cases v with
  | whole | real | text => rfl
  | list items => cases items <;> rfl
  | object fields => cases fields <;> rfl

mutual

/-- **The tokens of a value** are put together to its tree, whatever brackets are open. -/
theorem foldlM_tokens (stack : List Open) (rest : List Token) : ∀ v : Value,
    (v.tokens ++ rest).foldlM step? (.value stack) = rest.foldlM step? (put v.tree stack)
  | .whole n => by
    rw [Value.tokens, List.singleton_append, List.foldlM_cons, step?, Progress.begin?,
      ofWord?_toString]
    rfl
  | .real x => by
    rw [Value.tokens, List.singleton_append, List.foldlM_cons, step?, Progress.begin?,
      ofWord?_numberText]
    rfl
  | .text s => rfl
  | .list [] => rfl
  | .object [] => rfl
  | .list (item :: items) => by
    have hstart : ((Value.list (item :: items)).tokens ++ rest).foldlM step? (.value stack) =
        (item.tokens ++ (itemTokens items ++ rest)).foldlM step? (.listStart stack) := by
      rw [Value.tokens, List.cons_append, List.append_assoc]
      rfl
    rw [hstart, foldlM_listStart, foldlM_tokens]
    exact foldlM_itemTokens stack rest [item.tree] items
  | .object ((name, value) :: fields) => by
    have hstart : ((Value.object ((name, value) :: fields)).tokens ++ rest).foldlM step?
        (.value stack) = (value.tokens ++ (fieldTokens fields ++ rest)).foldlM step?
          (.value (.object [] name :: stack)) := by
      rw [Value.tokens, List.cons_append, List.cons_append, List.cons_append, List.append_assoc]
      rfl
    rw [hstart, foldlM_tokens]
    exact foldlM_fieldTokens stack rest [(name, value.tree)] fields

/-- The values that follow in a list are put after those that were read. -/
theorem foldlM_itemTokens (stack : List Open) (rest : List Token) (read : List Tree) :
    ∀ items : List Value, (itemTokens items ++ rest).foldlM step? (.afterItem read stack) =
      rest.foldlM step? (put (.list (read.reverse ++ treesOf items)) stack)
  | [] => by
    rw [treesOf, List.append_nil]
    rfl
  | item :: items => by
    have hcomma : (itemTokens (item :: items) ++ rest).foldlM step? (.afterItem read stack) =
        (item.tokens ++ (itemTokens items ++ rest)).foldlM step?
          (.value (.list read :: stack)) := by
      rw [itemTokens, List.cons_append, List.append_assoc]
      rfl
    rw [hcomma, foldlM_tokens, put, foldlM_itemTokens, List.reverse_cons, List.append_assoc,
      treesOf]
    rfl

/-- The fields that follow in an object are put after those that were read. -/
theorem foldlM_fieldTokens (stack : List Open) (rest : List Token) (read : List (String × Tree)) :
    ∀ fields : List (String × Value),
      (fieldTokens fields ++ rest).foldlM step? (.afterField read stack) =
        rest.foldlM step? (put (.object (read.reverse ++ fieldTreesOf fields)) stack)
  | [] => by
    rw [fieldTreesOf, List.append_nil]
    rfl
  | (name, value) :: fields => by
    have hcomma : (fieldTokens ((name, value) :: fields) ++ rest).foldlM step?
        (.afterField read stack) = (value.tokens ++ (fieldTokens fields ++ rest)).foldlM step?
          (.value (.object read name :: stack)) := by
      rw [fieldTokens, List.cons_append, List.cons_append, List.cons_append, List.append_assoc]
      rfl
    rw [hcomma, foldlM_tokens, put, foldlM_fieldTokens, List.reverse_cons, List.append_assoc,
      fieldTreesOf]
    rfl

end

/-! ### The round trip -/

theorem isWordPart_of_isBlank {c : Char} (h : isBlank c = true) : isWordPart c = false := by
  rw [isWordPart, h]
  rfl

/-- **A text is read back** as the tree of the value that it was made from. Blanks after it change
nothing. -/
theorem read?_render (layout : Layout) (v : Value) {blanks : String}
    (h : ∀ c ∈ blanks.toList, isBlank c = true) :
    read? (v.render layout 0 ++ blanks) = some v.tree := by
  have hends : EndsWord blanks.toList := fun c hc =>
    isWordPart_of_isBlank (h c (List.mem_of_mem_head? hc))
  have hblanks : tokens? blanks.toList = some [] := by
    have hskip := tokens?_blanks h []
    rwa [List.append_nil, tokens?] at hskip
  have hsplits := splits_render layout 0 v blanks.toList hends
  rw [hblanks, Option.map_some, List.append_nil] at hsplits
  have hput := foldlM_tokens [] [] v
  rw [List.append_nil] at hput
  rw [read?, String.toList_append, hsplits, Option.bind_some, treeOf?, hput]
  rfl

end TrafficSheet.Json
