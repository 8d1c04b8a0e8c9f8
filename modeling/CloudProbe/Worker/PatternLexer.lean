import CloudProbe.Worker.Inet
import Mathlib.Data.List.Basic

/-!
# The lexer of custom patterns

* **The lexer** (`getNextToken`): white space is skipped; `host`, `port`, `and` and `or` are
  keywords where no letter or digit follows; everything else up to white space, a parenthesis, or an
  `and` or `or` where no letter or digit follows, in the middle of a word too, is a value.
* **Progress** (`length_getNextToken_lt`): every token but the end consumes a character.
* **Cutting** (`tokens_append`): next to white space or a parenthesis a text can be cut without a
  change of its tokens.
* **Values** (`getNextToken_value`): which words are one value.

Sources without a file are in `req_pattern.c`.
-/

namespace CloudProbe.Worker

/-! ## The lexer -/

/-- `Token`; `TOKEN_ERROR` is never made.
Source: `req_pattern.c` -/
inductive Token where
  | host
  | port
  | and
  | or
  | lparen
  | rparen
  | value (text : List Char)
  | eof
deriving DecidableEq, Repr

/-- The word is next and no letter or digit follows.
Source: `get_next_token` -/
def keywordAt (word input : List Char) : Bool :=
  word.isPrefixOf input && !(input.drop word.length).head?.any Char.isAlphanum

/-- The words of the lexer.
Source: `get_next_token` -/
def hostWord : List Char := ['h', 'o', 's', 't']

@[inherit_doc hostWord]
def portWord : List Char := ['p', 'o', 'r', 't']

@[inherit_doc hostWord]
def andWord : List Char := ['a', 'n', 'd']

@[inherit_doc hostWord]
def orWord : List Char := ['o', 'r']

/-- What ends a value, apart from an operator.
Source: `get_next_token` -/
def isDelim (c : Char) : Bool := isspace c || c = '(' || c = ')'

/-- The loop over the characters of a value, with the value and what is left.
Source: `get_next_token` -/
def readValue : List Char → List Char × List Char
  | [] => ([], [])
  | c :: rest =>
    if isDelim c then ([], c :: rest)
    else if keywordAt andWord (c :: rest) then ([], c :: rest)
    else if keywordAt orWord (c :: rest) then ([], c :: rest)
    else (c :: (readValue rest).1, (readValue rest).2)

/-- The token at the start of the input behind white space.
Source: `get_next_token` -/
def tokenAt (input : List Char) : Token × List Char :=
  if input = [] then (.eof, [])
  else if keywordAt hostWord input then (.host, input.drop 4)
  else if keywordAt portWord input then (.port, input.drop 4)
  else if keywordAt andWord input then (.and, input.drop 3)
  else if keywordAt orWord input then (.or, input.drop 2)
  else if input.head? = some '(' then (.lparen, input.drop 1)
  else if input.head? = some ')' then (.rparen, input.drop 1)
  else (.value (readValue input).1, (readValue input).2)

/-- The next token and the input behind it.
Source: `get_next_token` -/
def getNextToken (input : List Char) : Token × List Char := tokenAt (input.dropWhile isspace)

/-! ## Progress -/

theorem readValue_append (input : List Char) :
    (readValue input).1 ++ (readValue input).2 = input := by
  induction input with
  | nil => rfl
  | cons c rest ih =>
    rw [readValue]
    split_ifs
    · rfl
    · rfl
    · rfl
    · rw [List.cons_append, ih]

/-- Every token but the end consumes a character. -/
theorem length_tokenAt_lt {input : List Char} (hspace : ∀ c ∈ input.head?, isspace c = false)
    (h : (tokenAt input).1 ≠ .eof) : (tokenAt input).2.length < input.length := by
  have hdrop : ∀ n, input ≠ [] → 0 < n → (input.drop n).length < input.length := by
    intro n hne hn
    have hpos := List.length_pos_iff.mpr hne
    rw [List.length_drop]
    omega
  rw [tokenAt] at h ⊢
  split_ifs at h ⊢ with hnil hhost hport hand hor hlparen hrparen
  · exact absurd rfl h
  · exact hdrop 4 hnil (by decide)
  · exact hdrop 4 hnil (by decide)
  · exact hdrop 3 hnil (by decide)
  · exact hdrop 2 hnil (by decide)
  · exact hdrop 1 hnil (by decide)
  · exact hdrop 1 hnil (by decide)
  · cases input with
    | nil => exact absurd rfl hnil
    | cons c rest =>
      have hdelim : ¬ isDelim c = true := by
        have hc := hspace c rfl
        simp only [List.head?_cons, Option.some.injEq] at hlparen hrparen
        simp [isDelim, hc, hlparen, hrparen]
      have hlen := congrArg List.length (readValue_append rest)
      rw [List.length_append] at hlen
      rw [readValue, if_neg hdelim, if_neg hand, if_neg hor]
      simp only [List.length_cons]
      omega

theorem length_getNextToken_lt {input : List Char} (h : (getNextToken input).1 ≠ .eof) :
    (getNextToken input).2.length < input.length := by
  have hspace : ∀ c ∈ (input.dropWhile isspace).head?, isspace c = false := by
    intro c hc
    have hnot := List.head?_dropWhile_not isspace input
    rw [Option.mem_def.mp hc] at hnot
    simpa using hnot
  have hlen := (List.dropWhile_suffix isspace (l := input)).length_le
  exact Nat.lt_of_lt_of_le (length_tokenAt_lt hspace h) hlen

def tokens (input : List Char) : List Token :=
  if h : (getNextToken input).1 = .eof then []
  else
    have := length_getNextToken_lt h
    (getNextToken input).1 :: tokens (getNextToken input).2
termination_by input.length

section Equations

variable {input : List Char}

theorem tokens_of_eof (h : (getNextToken input).1 = .eof) : tokens input = [] := by
  rw [tokens, dif_pos h]

theorem tokens_of_ne_eof (h : (getNextToken input).1 ≠ .eof) :
    tokens input = (getNextToken input).1 :: tokens (getNextToken input).2 := by
  rw [tokens, dif_neg h]

@[simp] theorem tokens_nil : tokens [] = [] := tokens_of_eof rfl

theorem tokens_of_one {token : Token} (h : getNextToken input = (token, [])) (hne : token ≠ .eof) :
    tokens input = [token] := by
  rw [tokens_of_ne_eof (by rw [h]; exact hne), h, tokens_nil]

theorem tokens_congr {input' : List Char} (h : getNextToken input = getNextToken input') :
    tokens input = tokens input' := by
  by_cases heof : (getNextToken input').1 = .eof
  · rw [tokens_of_eof heof, tokens_of_eof (h ▸ heof)]
  · rw [tokens_of_ne_eof heof, tokens_of_ne_eof (h ▸ heof), h]

theorem tokens_cons_of_isspace {c : Char} (h : isspace c = true) :
    tokens (c :: input) = tokens input := by
  apply tokens_congr
  rw [getNextToken, getNextToken, List.dropWhile_cons_of_pos h]

theorem getNextToken_of_head {c : Char} (h : isspace c = false) :
    getNextToken (c :: input) = tokenAt (c :: input) := by
  rw [getNextToken, List.dropWhile_cons_of_neg (by rw [h]; exact Bool.false_ne_true)]

end Equations

/-! ## Cutting -/

def Solid (word : List Char) : Prop := ∀ c ∈ word, isDelim c = false

/-- A text can be cut here: what is before ends, or what is after starts, with a delimiter. -/
def Cut (before after : List Char) : Prop :=
  (∃ text c, before = text ++ [c] ∧ isDelim c = true) ∨ ∀ c ∈ after.head?, isDelim c = true

theorem toNat_le_of_isDelim {c : Char} (h : isDelim c = true) : c.toNat ≤ 41 := by
  simp only [isDelim, isspace, Lib.isSpaceCode, Bool.or_eq_true, Bool.and_eq_true,
    decide_eq_true_eq] at h
  obtain (hspace | rfl) | rfl := h
  · omega
  all_goals decide

theorem isAlphanum_of_isDelim {c : Char} (h : isDelim c = true) : c.isAlphanum = false := by
  have hlow := toNat_le_of_isDelim h
  rw [← Bool.not_eq_true]
  intro halnum
  change (decide (c.val ≥ 'A'.val ∧ c.val ≤ 'Z'.val) ||
    (decide (c.val ≥ 'a'.val) && decide (c.val ≤ 'z'.val)) || c.isDigit) = true at halnum
  simp only [Char.isDigit, Bool.or_eq_true, Bool.and_eq_true, decide_eq_true_eq,
    UInt32.le_iff_toNat_le, ge_iff_le] at halnum
  change ((65 ≤ c.toNat ∧ c.toNat ≤ 90) ∨ (97 ≤ c.toNat ∧ c.toNat ≤ 122)) ∨
    (48 ≤ c.toNat ∧ c.toNat ≤ 57) at halnum
  omega

section Cutting

variable {word before after : List Char}

/-- A word does not reach over a cut. -/
theorem length_le_of_cut (hword : Solid word) (hcut : Cut before after)
    (hstarts : word <+: before ++ after) : word.length ≤ before.length := by
  by_contra hlt
  obtain ⟨tail, htail⟩ := hstarts
  have hsame : ∀ i < word.length, word[i]? = (before ++ after)[i]? := fun i hi => by
    rw [← htail, List.getElem?_append_left hi]
  obtain ⟨text, c, rfl, hc⟩ | hafter := hcut
  · rw [List.length_append, List.length_singleton] at hlt
    have hget := hsame text.length (by omega)
    rw [List.append_assoc, List.getElem?_append_right (Nat.le_refl _), Nat.sub_self] at hget
    exact absurd hc (Bool.eq_false_iff.mp (hword c (List.mem_of_getElem? hget)))
  · have hget := hsame before.length (by omega)
    rw [List.getElem?_append_right (Nat.le_refl _), Nat.sub_self, ← List.head?_eq_getElem?] at hget
    cases hhead : after.head? with
    | none =>
      rw [hhead, List.getElem?_eq_none_iff] at hget
      omega
    | some c =>
      rw [hhead] at hget
      exact absurd (hafter c hhead) (Bool.eq_false_iff.mp (hword c (List.mem_of_getElem? hget)))

/-- What is behind a cut is not looked at for a keyword. -/
theorem keywordAt_append (hword : Solid word) (hcut : Cut before after) :
    keywordAt word (before ++ after) = keywordAt word before := by
  by_cases hstarts : word <+: before
  · rw [keywordAt, keywordAt, List.isPrefixOf_iff_prefix.mpr hstarts,
      List.isPrefixOf_iff_prefix.mpr (hstarts.trans (List.prefix_append before after)),
      List.drop_append_of_le_length hstarts.length_le]
    cases hrest : before.drop word.length with
    | cons c rest => rfl
    | nil =>
      -- The word is all of what is before the cut, so the delimiter is behind it.
      have hall : word = before :=
        hstarts.eq_of_length_le (List.drop_eq_nil_iff.mp hrest)
      obtain ⟨text, c, htext, hc⟩ | hafter := hcut
      · have hmem : c ∈ word := by simp [hall, htext]
        exact absurd hc (Bool.eq_false_iff.mp (hword c hmem))
      · cases after with
        | nil => rfl
        | cons c after =>
          have hc := isAlphanum_of_isDelim (hafter c rfl)
          simp [hc]
  · have hneither : ¬ word <+: before ++ after := by
      intro hboth
      exact hstarts (List.prefix_of_prefix_length_le hboth (List.prefix_append before after)
        (length_le_of_cut hword hcut hboth))
    rw [← List.isPrefixOf_iff_prefix, Bool.not_eq_true] at hstarts hneither
    rw [keywordAt, keywordAt, hstarts, hneither]
    rfl

theorem solid_words : Solid hostWord ∧ Solid portWord ∧ Solid andWord ∧ Solid orWord := by
  simp only [Solid, hostWord, portWord, andWord, orWord, List.forall_mem_cons]
  exact ⟨⟨rfl, rfl, rfl, rfl, nofun⟩, ⟨rfl, rfl, rfl, rfl, nofun⟩, ⟨rfl, rfl, rfl, nofun⟩,
    ⟨rfl, rfl, nofun⟩⟩

theorem Cut.suffix {rest : List Char} (hcut : Cut before after) (hrest : rest <:+ before)
    (hne : rest ≠ []) : Cut rest after := by
  obtain ⟨text, c, rfl, hc⟩ | hafter := hcut
  · obtain ⟨read, hread⟩ := hrest
    obtain rfl | ⟨rest, d, rfl⟩ := List.eq_nil_or_concat rest
    · exact absurd rfl hne
    · rw [List.concat_eq_append, ← List.append_assoc] at hread
      obtain ⟨-, hd⟩ := List.append_inj' hread rfl
      obtain rfl := List.singleton_inj.mp hd
      exact .inl ⟨rest, d, List.concat_eq_append .., hc⟩
  · exact .inr hafter

/-- A value ends at a cut. -/
theorem readValue_cut (hcut : Cut before after) :
    readValue (before ++ after) = ((readValue before).1, (readValue before).2 ++ after) := by
  induction before with
  | nil =>
    obtain ⟨text, c, hnil, -⟩ | hafter := hcut
    · simp at hnil
    · cases after with
      | nil => rfl
      | cons d after => exact if_pos (hafter d rfl)
  | cons c before ih =>
    have hand := keywordAt_append solid_words.2.2.1 hcut
    have hor := keywordAt_append solid_words.2.2.2 hcut
    rw [List.cons_append] at hand hor ⊢
    rw [readValue, readValue, hand, hor]
    split_ifs with hc handw horw
    · rfl
    · rfl
    · rfl
    · have hcut' : Cut before after := by
        by_cases hnil : before = []
        · subst hnil
          obtain ⟨text, d, hlast, hd⟩ | hafter := hcut
          · obtain ⟨-, hcd⟩ := List.append_inj' ((List.nil_append [c]).trans hlast) rfl
            exact absurd (List.singleton_inj.mp hcd ▸ hd) hc
          · exact .inr hafter
        · exact hcut.suffix (List.suffix_cons c before) hnil
      rw [ih hcut']

theorem tokenAt_suffix (input : List Char) : (tokenAt input).2 <:+ input := by
  rw [tokenAt]
  split_ifs with hnil
  · exact List.nil_suffix
  · exact List.drop_suffix _ _
  · exact List.drop_suffix _ _
  · exact List.drop_suffix _ _
  · exact List.drop_suffix _ _
  · exact List.drop_suffix _ _
  · exact List.drop_suffix _ _
  · exact ⟨_, readValue_append input⟩

theorem getNextToken_suffix (input : List Char) : (getNextToken input).2 <:+ input :=
  (tokenAt_suffix _).trans (List.dropWhile_suffix _)

/-- A token ends at a cut. -/
theorem tokenAt_cut (hne : before ≠ []) (hcut : Cut before after) :
    tokenAt (before ++ after) = ((tokenAt before).1, (tokenAt before).2 ++ after) := by
  have hdrop : ∀ word : List Char, keywordAt word before = true →
      (before ++ after).drop word.length = before.drop word.length ++ after := by
    intro word hword
    rw [keywordAt, Bool.and_eq_true] at hword
    exact List.drop_append_of_le_length (List.isPrefixOf_iff_prefix.mp hword.1).length_le
  have hhead : (before ++ after).head? = before.head? := List.head?_append_of_ne_nil _ hne
  have hone : (before ++ after).drop 1 = before.drop 1 ++ after :=
    List.drop_append_of_le_length (List.length_pos_iff.mpr hne)
  rw [tokenAt, tokenAt, if_neg (List.append_ne_nil_of_left_ne_nil hne after), if_neg hne,
    keywordAt_append solid_words.1 hcut, keywordAt_append solid_words.2.1 hcut,
    keywordAt_append solid_words.2.2.1 hcut, keywordAt_append solid_words.2.2.2 hcut, hhead,
    readValue_cut hcut, hone]
  split_ifs with hhost hport hand hor
  · exact congrArg (Token.host, ·) (hdrop _ hhost)
  · exact congrArg (Token.port, ·) (hdrop _ hport)
  · exact congrArg (Token.and, ·) (hdrop _ hand)
  · exact congrArg (Token.or, ·) (hdrop _ hor)
  all_goals rfl

theorem tokenAt_ne_eof {input : List Char} (hne : input ≠ []) : (tokenAt input).1 ≠ .eof := by
  rw [tokenAt, if_neg hne]
  split_ifs <;> exact Token.noConfusion

/-- A text is read in two parts where it can be cut. -/
theorem tokens_append (before : List Char) (hcut : before ≠ [] → Cut before after) :
    tokens (before ++ after) = tokens before ++ tokens after := by
  -- Induction on the length of what is before the cut, one token a step.
  induction hn : before.length using Nat.strong_induction_on generalizing before with
  | _ n ih =>
  subst hn
  by_cases hspace : before.dropWhile isspace = []
  · have heof : (getNextToken before).1 = .eof := by
      rw [getNextToken, hspace]
      rfl
    rw [tokens_of_eof heof, List.nil_append]
    apply tokens_congr
    rw [getNextToken, getNextToken, List.dropWhile_append, hspace]
    rfl
  · have hne : before ≠ [] := by
      rintro rfl
      exact hspace rfl
    have hsuffix : before.dropWhile isspace <:+ before := List.dropWhile_suffix _
    have hnext : getNextToken (before ++ after) =
        ((getNextToken before).1, (getNextToken before).2 ++ after) := by
      rw [getNextToken, getNextToken, List.dropWhile_append,
        if_neg (by simpa [List.isEmpty_iff] using hspace)]
      exact tokenAt_cut hspace ((hcut hne).suffix hsuffix hspace)
    have htoken : (getNextToken before).1 ≠ .eof := tokenAt_ne_eof hspace
    have hlt := length_getNextToken_lt htoken
    have hrest := getNextToken_suffix before
    rw [tokens_of_ne_eof htoken, tokens_of_ne_eof (hnext ▸ htoken), hnext, List.cons_append,
      ih _ hlt _ (fun hne' => (hcut hne).suffix hrest hne') rfl]

end Cutting

/-! ## Values -/

/-- No operator starts in the word: neither `and` nor `or` ends it or stands before a sign. -/
def Uncut (word : List Char) : Prop :=
  ∀ rest, rest <:+ word → keywordAt andWord rest = false ∧ keywordAt orWord rest = false

section Values

variable {word : List Char}

/-- A word is read whole exactly when no operator cuts it. -/
theorem readValue_eq_self_iff (hsolid : Solid word) : (readValue word).1 = word ↔ Uncut word := by
  induction word with
  | nil =>
    refine ⟨fun _ rest hrest => ?_, fun _ => rfl⟩
    rw [List.suffix_nil.mp hrest]
    exact ⟨rfl, rfl⟩
  | cons c word ih =>
    rw [Solid, List.forall_mem_cons] at hsolid
    have hdelim : ¬ isDelim c = true := Bool.eq_false_iff.mp hsolid.1
    rw [readValue, if_neg hdelim]
    split_ifs with hand hor
    · refine ⟨fun hnil => hnil.elim, fun huncut => ?_⟩
      exact absurd hand (Bool.eq_false_iff.mp (huncut _ (List.suffix_refl _)).1)
    · refine ⟨fun hnil => hnil.elim, fun huncut => ?_⟩
      exact absurd hor (Bool.eq_false_iff.mp (huncut _ (List.suffix_refl _)).2)
    · rw [List.cons_inj_right, ih hsolid.2]
      constructor
      · intro huncut rest hrest
        obtain rfl | hrest := List.suffix_cons_iff.mp hrest
        · exact ⟨Bool.eq_false_iff.mpr hand, Bool.eq_false_iff.mpr hor⟩
        · exact huncut rest hrest
      · intro huncut rest hrest
        exact huncut rest (hrest.trans (List.suffix_cons c word))

theorem readValue_of_uncut (hsolid : Solid word) (huncut : Uncut word) :
    readValue word = (word, []) := by
  have hread := (readValue_eq_self_iff hsolid).mpr huncut
  have happend := readValue_append word
  rw [hread] at happend
  exact Prod.ext hread (List.append_right_eq_self.mp happend)

theorem getNextToken_word (hne : word ≠ []) (hsolid : Solid word)
    (hhost : keywordAt hostWord word = false) (hport : keywordAt portWord word = false)
    (hand : keywordAt andWord word = false) (hor : keywordAt orWord word = false) :
    getNextToken word = (.value (readValue word).1, (readValue word).2) := by
  cases word with
  | nil => exact absurd rfl hne
  | cons c word =>
    have hc : isDelim c = false := hsolid c List.mem_cons_self
    simp only [isDelim, Bool.or_eq_false_iff, decide_eq_false_iff_not] at hc
    have hlparen : ¬ (c :: word).head? = some '(' := by simpa using hc.1.2
    have hrparen : ¬ (c :: word).head? = some ')' := by simpa using hc.2
    rw [getNextToken_of_head hc.1.1, tokenAt, if_neg hne, hhost, hport, hand, hor,
      if_neg Bool.false_ne_true, if_neg Bool.false_ne_true, if_neg Bool.false_ne_true,
      if_neg Bool.false_ne_true, if_neg hlparen, if_neg hrparen]

/-- **Values**: a word without delimiters and operators that is no keyword is one value. -/
theorem tokens_value (hne : word ≠ []) (hsolid : Solid word) (huncut : Uncut word)
    (hhost : keywordAt hostWord word = false) (hport : keywordAt portWord word = false) :
    tokens word = [.value word] := by
  obtain ⟨hand, hor⟩ := huncut word (List.suffix_refl word)
  refine tokens_of_one ?_ Token.noConfusion
  rw [getNextToken_word hne hsolid hhost hport hand hor, readValue_of_uncut hsolid huncut]

end Values

end CloudProbe.Worker
