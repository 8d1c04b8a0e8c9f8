import CloudProbe.Worker.PatternGrammar

/-!
# Printed patterns

A tree is printed with single spaces, and with parentheses only around an `or` below an `and`
(`printPattern`). Chains of one operator lose their grouping that way, and the parser groups them to
the left; so what is parsed back is not the tree but one with the same value (`print_sentence`).
-/

namespace CloudProbe.Worker

open List

/-! ## Values -/

section Values

theorem keywordAt_eq_false {word input : List Char} {c : Char} (hc : c ∈ word) (hnot : c ∉ input) :
    keywordAt word input = false := by
  rw [keywordAt, Bool.and_eq_false_iff]
  left
  rw [← Bool.not_eq_true, isPrefixOf_iff_prefix]
  intro hstarts
  exact hnot (hstarts.subset hc)

theorem toNat_ge_of_isAddrChar {c : Char} (h : isAddrChar c = true) : 46 ≤ c.toNat := by
  simp only [isAddrChar, Char.isDigit, Bool.or_eq_true, Bool.and_eq_true, decide_eq_true_eq,
    UInt32.le_iff_toNat_le, ge_iff_le] at h
  obtain ((hdigit | hhex) | rfl) | rfl := h
  · exact Nat.le_trans (by decide) hdigit.1
  · exact Nat.le_trans (by decide) hhex.1
  all_goals decide

/-- The text of an address is one token. -/
theorem tokens_addrChars {text : List Char} (hne : text ≠ [])
    (hchars : ∀ c ∈ text, isAddrChar c = true) : tokens text = [.value text] := by
  have hnot : ∀ c : Char, isAddrChar c = false → c ∉ text := by
    intro c hc hmem
    rw [hchars c hmem] at hc
    cases hc
  have hsolid : Solid text := by
    intro c hmem
    have hge := toNat_ge_of_isAddrChar (hchars c hmem)
    rw [← Bool.not_eq_true]
    intro hdelim
    have hle := toNat_le_of_isDelim hdelim
    omega
  apply tokens_value hne hsolid
  · intro rest hrest
    refine ⟨keywordAt_eq_false (c := 'n') (by decide) fun hmem => ?_,
      keywordAt_eq_false (c := 'o') (by decide) fun hmem => ?_⟩
    · exact hnot 'n' (by decide) (hrest.subset hmem)
    · exact hnot 'o' (by decide) (hrest.subset hmem)
  · exact keywordAt_eq_false (c := 'h') (by decide) (hnot 'h' (by decide))
  · exact keywordAt_eq_false (c := 'p') (by decide) (hnot 'p' (by decide))

theorem eq_zero_of_head?_toDigits {n : ℕ} (h : (Nat.toDigits 10 n).head? = some '0') : n = 0 := by
  induction n using Nat.strong_induction_on with
  | _ n ih =>
  by_cases hlt : n < 10
  · rw [Nat.toDigits_of_lt_base hlt] at h
    have hdigit : ∀ k < 10, Nat.digitChar k = '0' → k = 0 := by decide
    exact hdigit n hlt (Option.some.inj h)
  · rw [Nat.toDigits_of_base_le (by decide) (Nat.not_lt.mp hlt),
      List.head?_append_of_ne_nil _ Nat.toDigits_ne_nil] at h
    have hzero := ih (n / 10) (by omega) h
    omega

/-- A port that is printed is read back. -/
theorem portOfValue_toDigits (port : UInt16) :
    portOfValue (Nat.toDigits 10 port.toNat) = some port := by
  have hdigits : ∀ c ∈ Nat.toDigits 10 port.toNat, c.isDigit = true :=
    fun c hc => Nat.isDigit_of_mem_toDigits (by decide) (by decide) hc
  have htake : (Nat.toDigits 10 port.toNat).takeWhile Char.isDigit = Nat.toDigits 10 port.toNat :=
    takeWhile_eq_self_iff.mpr hdigits
  have hdrop : (Nat.toDigits 10 port.toNat).dropWhile Char.isDigit = [] :=
    dropWhile_eq_nil_iff.mpr hdigits
  have hplain : ((Nat.toDigits 10 port.toNat).head?.any Char.isDigit &&
      !((Nat.toDigits 10 port.toNat).head? = some '0' &&
        ((Nat.toDigits 10 port.toNat).drop 1 ≠ []))) = true := by
    cases hlist : Nat.toDigits 10 port.toNat with
    | nil => exact absurd hlist Nat.toDigits_ne_nil
    | cons c rest =>
      have hc : c.isDigit = true := hdigits c (hlist ▸ mem_cons_self)
      by_cases hzero : c = '0'
      · have hport : port.toNat = 0 := eq_zero_of_head?_toDigits (by rw [hlist, hzero]; rfl)
        rw [hport, Nat.toDigits_zero] at hlist
        obtain ⟨rfl, rfl⟩ := List.cons.inj hlist
        rfl
      · simp [hc, hzero]
  have hlt := port.toNat_lt
  rw [portOfValue, hplain, htake, hdrop, Nat.ofDigitChars_ten_toDigits, if_neg, UInt16.ofNat_toNat]
  rintro (hfalse | hlong | hrest | hbig)
  · cases hfalse
  · omega
  · exact hrest rfl
  · omega

theorem createConditionNode_formatIpAddr (inet : Inet) (getIp : GetIfIpAddr) (addr : IpAddr) :
    createConditionNode inet getIp .host (inet.formatIpAddr addr) = (some (.host addr), []) := by
  have hnic : ¬ nicTokenPrefix.isPrefixOf (inet.formatIpAddr addr) = true := by
    rw [ isPrefixOf_iff_prefix]
    intro hstarts
    have hn : isAddrChar 'n' = true :=
      (inet.formatIpAddr_text addr).2 'n' (hstarts.subset mem_cons_self)
    cases hn
  rw [createConditionNode, if_neg hnic]
  cases addr with
  | v4 addr => rw [Inet.formatIpAddr, inet.pton4_ntop4]
  | v6 addr => rw [Inet.formatIpAddr, inet.pton4_ntop6, inet.pton6_ntop6]

end Values

/-! ## Printing -/

def ConditionType.word : ConditionType → List Char
  | .host => hostWord
  | .port => portWord

def OperatorType.word : OperatorType → List Char
  | .and => andWord
  | .or => orWord

def Node.isOr : Node → Bool
  | .or _ _ => true
  | _ => false

def inParens (node : Node) (text : List Char) : List Char :=
  if node.isOr then '(' :: (text ++ [')']) else text

/-- The text of a tree: single spaces, and parentheses only around an `or` below an `and`. -/
def printPattern (inet : Inet) : Node → List Char
  | .host addr => hostWord ++ ' ' :: inet.formatIpAddr addr
  | .port port => portWord ++ ' ' :: Nat.toDigits 10 port.toNat
  | .and left right =>
    inParens left (printPattern inet left) ++
      ' ' :: (andWord ++ ' ' :: inParens right (printPattern inet right))
  | .or left right => printPattern inet left ++ ' ' :: (orWord ++ ' ' :: printPattern inet right)

section Printed

theorem tokens_append_space (before after : List Char) :
    tokens (before ++ ' ' :: after) = tokens before ++ tokens after := by
  rw [tokens_append before fun _ => .inr ?_, tokens_cons_of_isspace rfl]
  rintro c ⟨⟩
  rfl

theorem tokens_printed_condition (type : ConditionType) {text : List Char} (hne : text ≠ [])
    (hchars : ∀ c ∈ text, isAddrChar c = true) :
    tokens (type.word ++ ' ' :: text) = [type.token, .value text] := by
  have hword : tokens type.word = [type.token] := by
    cases type <;> decide +kernel
  rw [tokens_append_space, hword, tokens_addrChars hne hchars]
  rfl

theorem tokens_printed_operator (op : OperatorType) (left right : List Char) :
    tokens (left ++ ' ' :: (op.word ++ ' ' :: right)) =
      tokens left ++ op.token :: tokens right := by
  have hword : tokens op.word = [op.token] := by
    cases op <;> decide +kernel
  rw [tokens_append_space, tokens_append_space, hword]
  rfl

theorem tokens_printed_paren (text : List Char) :
    tokens ('(' :: (text ++ [')'])) = .lparen :: (tokens text ++ [.rparen]) := by
  have hopen : tokens ['('] = [.lparen] := by decide +kernel
  have hclose : tokens [')'] = [.rparen] := by decide +kernel
  have hbefore : Cut ['('] (text ++ [')']) := .inl ⟨[], '(', rfl, rfl⟩
  have hafter : Cut text [')'] := .inr (by rintro c ⟨⟩; rfl)
  calc tokens ('(' :: (text ++ [')']))
      = tokens ['('] ++ tokens (text ++ [')']) := tokens_append ['('] fun _ => hbefore
    _ = tokens ['('] ++ (tokens text ++ tokens [')']) := by rw [tokens_append text fun _ => hafter]
    _ = .lparen :: (tokens text ++ [.rparen]) := by rw [hopen, hclose]; rfl

end Printed

/-! ## Parsing back -/

def SameValue (node tree : Node) : Prop :=
  ∀ ip port, evaluate ip port node = evaluate ip port tree

section Back

variable {inet : Inet} {getIp : GetIfIpAddr}

theorem sameValue_operator (op : OperatorType) {left left' right right' : Node}
    (hleft : SameValue left left') (hright : SameValue right right') :
    SameValue (createOperatorNode op left right) (createOperatorNode op left' right') := by
  intro ip port
  cases op with
  | and | or => simp only [createOperatorNode, evaluate, hleft ip port, hright ip port]

theorem sameValue_assoc (op : OperatorType) (a b c : Node) :
    SameValue (createOperatorNode op (createOperatorNode op a b) c)
      (createOperatorNode op a (createOperatorNode op b c)) := by
  intro ip port
  cases op with
  | and => simp only [createOperatorNode, evaluate, Bool.and_assoc]
  | or => simp only [createOperatorNode, evaluate, Bool.or_assoc]

/-- Two chains of an operator are one. -/
theorem sentence_chain_append {op : OperatorType} {ts us : List Token} {left right : Node}
    {asked asked' : List (List Char)} (hleft : Sentence inet getIp (.chain op) ts left asked)
    (hright : Sentence inet getIp (.chain op) us right asked') :
    ∃ node, Sentence inet getIp (.chain op) (ts ++ op.token :: us) node (asked ++ asked') ∧
      SameValue node (createOperatorNode op left right) := by
  generalize hlevel : Level.chain op = level at hright
  induction hright with
  | @operand op' us right asked' hoperand _ =>
    obtain rfl := Level.chain.inj hlevel
    exact ⟨_, .more hleft hoperand, fun _ _ => rfl⟩
  | @more op' us us' b c asked₁ asked₂ _ hlast ih _ =>
    obtain rfl := Level.chain.inj hlevel
    obtain ⟨node, hsentence, hvalue⟩ := ih rfl
    refine ⟨createOperatorNode op node c, ?_, ?_⟩
    · have hmore := Sentence.more hsentence hlast
      simpa only [append_assoc, cons_append] using hmore
    · intro ip port
      rw [sameValue_operator op hvalue (fun _ _ => rfl) ip port,
        sameValue_assoc op left b c ip port]
  | paren | condition => cases hlevel

variable (inet getIp) in
/-- The text is a sentence of a level with the value of the tree. -/
def ParsesAs (level : Level) (text : List Char) (tree : Node) : Prop :=
  ∃ node, Sentence inet getIp level (tokens text) node [] ∧ SameValue node tree

/-- Two printed trees with an operator between them. -/
theorem parsesAs_operator (op : OperatorType) {left right : List Char} {l r : Node}
    (hleft : ParsesAs inet getIp (.chain op) left l)
    (hright : ParsesAs inet getIp (.chain op) right r) :
    ParsesAs inet getIp (.chain op) (left ++ ' ' :: (op.word ++ ' ' :: right))
      (createOperatorNode op l r) := by
  obtain ⟨nodeLeft, hsentenceLeft, hvalueLeft⟩ := hleft
  obtain ⟨nodeRight, hsentenceRight, hvalueRight⟩ := hright
  obtain ⟨node, hsentence, hvalue⟩ := sentence_chain_append hsentenceLeft hsentenceRight
  refine ⟨node, ?_, ?_⟩
  · rw [tokens_printed_operator]
    exact hsentence
  · intro ip port
    rw [hvalue ip port, sameValue_operator op hvalueLeft hvalueRight ip port]

variable {tree : Node} {text : List Char}

theorem parsesAs_inParens (hor : ParsesAs inet getIp (.chain .or) text tree)
    (hand : tree.isOr = false → ParsesAs inet getIp (.chain .and) text tree) :
    ParsesAs inet getIp (.chain .and) (inParens tree text) tree := by
  rw [inParens]
  split_ifs with hisOr
  · obtain ⟨node, hsentence, hvalue⟩ := hor
    refine ⟨node, ?_, hvalue⟩
    rw [tokens_printed_paren]
    exact .operand (Sentence.paren hsentence)
  · exact hand (Bool.eq_false_iff.mpr hisOr)

theorem parsesAs_condition (type : ConditionType) (hne : text ≠ [])
    (hchars : ∀ c ∈ text, isAddrChar c = true)
    (hnode : createConditionNode inet getIp type text = (some tree, [])) :
    ParsesAs inet getIp (.chain .and) (type.word ++ ' ' :: text) tree := by
  refine ⟨tree, ?_, fun _ _ => rfl⟩
  rw [tokens_printed_condition type hne hchars]
  exact .operand (Sentence.condition hnode)

theorem ParsesAs.expression (h : ParsesAs inet getIp (.chain .and) text tree) :
    ParsesAs inet getIp (.chain .or) text tree := by
  obtain ⟨node, hsentence, hvalue⟩ := h
  have hterm : Sentence inet getIp OperatorType.or.operand (tokens text) node [] := hsentence
  exact ⟨node, .operand hterm, hvalue⟩

/-- **A printed tree** is an expression with its value, and a term unless it is an `or`. -/
theorem print_sentence (tree : Node) :
    ParsesAs inet getIp (.chain .or) (printPattern inet tree) tree ∧
      (tree.isOr = false → ParsesAs inet getIp (.chain .and) (printPattern inet tree) tree) := by
  induction tree with
  | host addr =>
    obtain ⟨hne, hchars⟩ := inet.formatIpAddr_text addr
    have hterm : ParsesAs inet getIp (.chain .and) (printPattern inet (.host addr))
        (.host addr) :=
      parsesAs_condition .host hne hchars (createConditionNode_formatIpAddr inet getIp addr)
    exact ⟨hterm.expression, fun _ => hterm⟩
  | port port =>
    have hchars := all_eq_true.mp (Inet.all_isAddrChar_toDigits port.toNat)
    have hnode : createConditionNode inet getIp .port (Nat.toDigits 10 port.toNat) =
        (some (.port port), []) := by
      rw [createConditionNode, portOfValue_toDigits]
      rfl
    have hterm : ParsesAs inet getIp (.chain .and) (printPattern inet (.port port))
        (.port port) :=
      parsesAs_condition .port Nat.toDigits_ne_nil hchars hnode
    exact ⟨hterm.expression, fun _ => hterm⟩
  | and left right ihleft ihright =>
    have hterm : ParsesAs inet getIp (.chain .and) (printPattern inet (.and left right))
        (.and left right) :=
      parsesAs_operator .and (parsesAs_inParens ihleft.1 ihleft.2)
        (parsesAs_inParens ihright.1 ihright.2)
    exact ⟨hterm.expression, fun _ => hterm⟩
  | or left right ihleft ihright =>
    refine ⟨parsesAs_operator .or ihleft.1 ihright.1, ?_⟩
    nofun

end Back

def Node.Holds (ip : IpAddr) (port : UInt16) : Node → Prop
  | .host addr => addr = ip
  | .port p => p = port
  | .and left right => left.Holds ip port ∧ right.Holds ip port
  | .or left right => left.Holds ip port ∨ right.Holds ip port

theorem evaluate_eq_true_iff (ip : IpAddr) (port : UInt16) (node : Node) :
    evaluate ip port node = true ↔ node.Holds ip port := by
  induction node with
  | host addr =>
    rw [evaluate, Node.Holds]
    cases addr <;> cases ip <;> simp [ipAddrEqual]
  | port p => rw [evaluate, Node.Holds, decide_eq_true_eq]
  | and left right ihleft ihright =>
    rw [evaluate, Node.Holds, Bool.and_eq_true, ihleft, ihright]
  | or left right ihleft ihright =>
    rw [evaluate, Node.Holds, Bool.or_eq_true, ihleft, ihright]

/-- **The pattern parser** accepts a pattern exactly when its tokens are an expression of the
grammar with valid values, and a printed tree with a matcher that has its value. -/
theorem pattern_parser_correct (inet : Inet) (getIp : GetIfIpAddr) :
    (∀ input, (getNextToken input).1 ≠ .eof →
        ∃ read, read ≠ [] ∧ input = read ++ (getNextToken input).2) ∧
      (∀ pattern, (reqPatternCustomMatcherInit inet getIp pattern).1.isSome = true ↔
        ∃ node asked, Sentence inet getIp (.chain .or) (tokens pattern) node asked) ∧
      ∀ tree : Node, ∃ node,
        (reqPatternCustomMatcherInit inet getIp (printPattern inet tree)).1 = some node ∧
          ∀ ip port, reqPatternCustomMatchByIpport (some node) ip port = true ↔
            tree.Holds ip port := by
  refine ⟨?_, ?_, ?_⟩
  · intro input hne
    obtain ⟨read, hread⟩ := getNextToken_suffix input
    refine ⟨read, ?_, hread.symm⟩
    rintro rfl
    have hlt := length_getNextToken_lt hne
    have hlen := congrArg List.length hread
    rw [nil_append] at hlen
    omega
  · intro pattern
    rw [Option.isSome_iff_exists]
    constructor
    · rintro ⟨node, hnode⟩
      exact ⟨node, _, (init_eq_some_iff pattern node _).mp (Prod.ext hnode rfl)⟩
    · rintro ⟨node, asked, hsentence⟩
      exact ⟨node, congrArg Prod.fst ((init_eq_some_iff pattern node asked).mpr hsentence)⟩
  · intro tree
    obtain ⟨node, hsentence, hvalue⟩ := (print_sentence tree).1
    refine ⟨node, congrArg Prod.fst ((init_eq_some_iff _ node []).mpr hsentence), ?_⟩
    intro ip port
    rw [← evaluate_eq_true_iff, ← hvalue ip port]
    rfl

/-- `(host 10.0.0.1 or host 10.0.0.2) and port 8011` is accepted and means what it says. -/
theorem pattern_parser_correct_hosts : ∃ node,
    (reqPatternCustomMatcherInit .dotted (fun _ => none)
      "(host 10.0.0.1 or host 10.0.0.2) and port 8011".toList).1 = some node ∧
    ∀ ip port, reqPatternCustomMatchByIpport (some node) ip port = true ↔
      (ip = .v4 0x0a000001#32 ∨ ip = .v4 0x0a000002#32) ∧ port = 8011 := by
  have hprinted : printPattern .dotted
      (.and (.or (.host (.v4 0x0a000001#32)) (.host (.v4 0x0a000002#32))) (.port 8011)) =
        "(host 10.0.0.1 or host 10.0.0.2) and port 8011".toList := by decide +kernel
  obtain ⟨node, haccepted, hvalue⟩ := (pattern_parser_correct .dotted fun _ => none).2.2
    (.and (.or (.host (.v4 0x0a000001#32)) (.host (.v4 0x0a000002#32))) (.port 8011))
  refine ⟨node, hprinted ▸ haccepted, ?_⟩
  intro ip port
  rw [hvalue]
  simp only [Node.Holds, eq_comm]

end CloudProbe.Worker
