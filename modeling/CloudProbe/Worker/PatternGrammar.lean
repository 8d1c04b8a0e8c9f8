import CloudProbe.Worker.PatternParser

/-!
# The grammar of custom patterns

`Sentence` is the grammar

    expr   := term (or term)*
    term   := factor (and factor)*
    factor := ( expr ) | host VALUE | port VALUE

over tokens, with the tree of a sentence and the names that `get_ip` is asked for on the way; a
value has to be valid for its condition. A sentence is accepted whatever follows it, as long as that
does not go on with an operator of a lower level (`parse_complete`).
-/

namespace CloudProbe.Worker

open List

section Grammar

variable (inet : Inet) (getIp : GetIfIpAddr)

/-- The levels of the grammar: an expression is a chain over `or`, a term one over `and`. -/
inductive Level where
  | chain (op : OperatorType)
  | factor
deriving DecidableEq, Repr

def OperatorType.operand : OperatorType → Level
  | .or => .chain .and
  | .and => .factor

/-- The sentences of a level, with their tree and the names that are asked for. -/
inductive Sentence : Level → List Token → Node → List (List Char) → Prop
  | operand {op : OperatorType} {ts : List Token} {node : Node} {asked : List (List Char)} :
      Sentence op.operand ts node asked → Sentence (.chain op) ts node asked
  | more {op : OperatorType} {ts us : List Token} {left right : Node}
      {asked asked' : List (List Char)} :
      Sentence (.chain op) ts left asked → Sentence op.operand us right asked' →
      Sentence (.chain op) (ts ++ op.token :: us) (createOperatorNode op left right)
        (asked ++ asked')
  | paren {ts : List Token} {node : Node} {asked : List (List Char)} :
      Sentence (.chain .or) ts node asked →
      Sentence .factor (.lparen :: (ts ++ [.rparen])) node asked
  | condition {type : ConditionType} {value : List Char} {node : Node}
      {asked : List (List Char)} :
      createConditionNode inet getIp type value = (some node, asked) →
      Sentence .factor [type.token, .value value] node asked

def parseLevel : Level → ParserState → Option Node × ParserState
  | .chain op, s => (parseChain inet getIp op s).val
  | .factor, s => (parseFactor inet getIp s).val

end Grammar

/-! ## Equations -/

section Equations

variable {inet : Inet} {getIp : GetIfIpAddr} {op : OperatorType} {s s' : ParserState}
  {left right : Node}

theorem NodeResult.eq_mk {result : NodeResult s} {value : Option Node × ParserState}
    (h : result.val = value) : ∃ hvalue, result = ⟨value, hvalue⟩ := by
  subst h
  exact ⟨result.property, rfl⟩

theorem parseOperand_val (op : OperatorType) (s : ParserState) :
    (parseOperand inet getIp op s).val = parseLevel inet getIp op.operand s := by
  cases op with
  | and | or =>
    rw [parseOperand]
    rfl

theorem parseLevel_chain_of_none (h : parseLevel inet getIp op.operand s = (none, s')) :
    parseLevel inet getIp (.chain op) s = (none, s') := by
  obtain ⟨hle, hoperand⟩ := NodeResult.eq_mk ((parseOperand_val op s).trans h)
  rw [parseLevel, parseChain, hoperand]

theorem parseLevel_chain_of_some (h : parseLevel inet getIp op.operand s = (some left, s')) :
    parseLevel inet getIp (.chain op) s = (operatorLoop inet getIp op left s').val := by
  obtain ⟨hle, hoperand⟩ := NodeResult.eq_mk ((parseOperand_val op s).trans h)
  rw [parseLevel, parseChain, hoperand]
  rfl

theorem operatorLoop_of_ne (h : s.token ≠ op.token) :
    (operatorLoop inet getIp op left s).val = (some left, s) := by
  rw [operatorLoop, dif_neg h]

theorem operatorLoop_of_none (htoken : s.token = op.token)
    (h : parseLevel inet getIp op.operand s.nextToken = (none, s')) :
    (operatorLoop inet getIp op left s).val = (none, s') := by
  obtain ⟨hle, hoperand⟩ := NodeResult.eq_mk ((parseOperand_val op s.nextToken).trans h)
  rw [operatorLoop, dif_pos htoken, hoperand]

theorem operatorLoop_of_some (htoken : s.token = op.token)
    (h : parseLevel inet getIp op.operand s.nextToken = (some right, s')) :
    (operatorLoop inet getIp op left s).val =
      (operatorLoop inet getIp op (createOperatorNode op left right) s').val := by
  obtain ⟨hle, hoperand⟩ := NodeResult.eq_mk ((parseOperand_val op s.nextToken).trans h)
  rw [operatorLoop, dif_pos htoken, hoperand]
  rfl

theorem parseLevel_factor_paren {expr : Option Node} (htoken : s.token = .lparen)
    (h : parseLevel inet getIp (.chain .or) s.nextToken = (expr, s')) :
    parseLevel inet getIp .factor s =
      if s'.token = .rparen then (expr, s'.nextToken) else (none, s') := by
  obtain ⟨hle, hexpr⟩ := NodeResult.eq_mk h
  rw [parseLevel, parseFactor, dif_pos htoken, hexpr]
  dsimp only
  split_ifs
  · rfl
  · rfl

theorem parseLevel_factor_condition (htoken : s.token ≠ .lparen) :
    parseLevel inet getIp .factor s = parseCondition inet getIp s := by
  rw [parseLevel, parseFactor, dif_neg htoken]

end Equations

/-! ## Soundness -/

section Soundness

variable {inet : Inet} {getIp : GetIfIpAddr}

variable (inet getIp) in
/-- What the function of a level accepts from a state is a sentence. -/
def SoundAt (level : Level) (s : ParserState) : Prop :=
  ∀ node s', parseLevel inet getIp level s = (some node, s') →
    ∃ ts asked, Sentence inet getIp level ts node asked ∧ s.ahead = ts ++ s'.ahead ∧
      s'.asked = s.asked ++ asked

theorem ConditionType.token_ne_eof (type : ConditionType) : type.token ≠ .eof := by
  cases type <;> exact Token.noConfusion

variable {s : ParserState}

/-- A condition that is accepted is one. -/
theorem sentence_of_parseConditionOf (type : ConditionType) {s' : ParserState} {node : Node}
    (htoken : s.token = type.token) (h : parseConditionOf inet getIp type s = (some node, s')) :
    ∃ ts asked, Sentence inet getIp .factor ts node asked ∧ s.ahead = ts ++ s'.ahead ∧
      s'.asked = s.asked ++ asked := by
  rw [parseConditionOf] at h
  split at h
  · next value hvalue =>
    obtain ⟨hnode, rfl⟩ := Prod.mk.inj h
    refine ⟨[type.token, .value value], (createConditionNode inet getIp type value).2,
      .condition (Prod.ext hnode rfl), ?_, rfl⟩
    rw [ParserState.ahead_eq_cons (htoken ▸ type.token_ne_eof), htoken,
      ParserState.ahead_eq_cons (by rw [hvalue]; exact Token.noConfusion), hvalue]
    rfl
  · cases (Prod.mk.inj h).1

/-- A factor that is accepted is one. -/
theorem soundAt_factor (hexpr : s.token = .lparen → SoundAt inet getIp (.chain .or) s.nextToken) :
    SoundAt inet getIp .factor s := by
  intro node s' h
  by_cases hparen : s.token = .lparen
  · cases hinside : parseLevel inet getIp (.chain .or) s.nextToken with
    | mk expr s'' =>
    rw [parseLevel_factor_paren hparen hinside] at h
    split_ifs at h with hclosed
    · obtain ⟨rfl, rfl⟩ := Prod.mk.inj h
      obtain ⟨ts, asked, hsentence, hahead, hasked⟩ := hexpr hparen node s'' hinside
      refine ⟨_, asked, .paren hsentence, ?_, hasked⟩
      rw [ParserState.ahead_eq_cons (by rw [hparen]; exact Token.noConfusion), hparen, hahead,
        ParserState.ahead_eq_cons (by rw [hclosed]; exact Token.noConfusion), hclosed]
      simp
    · cases (Prod.mk.inj h).1
  · rw [parseLevel_factor_condition hparen, parseCondition] at h
    split_ifs at h with hhost hport
    · exact sentence_of_parseConditionOf .host hhost h
    · exact sentence_of_parseConditionOf .port hport h
    · cases (Prod.mk.inj h).1

/-- What the loop of an operator accepts is a sentence of its level. -/
theorem operatorLoop_sound {op : OperatorType} {n : ℕ}
    (hoperand : ∀ s : ParserState, s.ahead.length ≤ n → SoundAt inet getIp op.operand s)
    {s' : ParserState} {left node : Node} {ts₀ : List Token} {asked₀ : List (List Char)}
    (hs : s.ahead.length ≤ n) (hleft : Sentence inet getIp (.chain op) ts₀ left asked₀)
    (h : (operatorLoop inet getIp op left s).val = (some node, s')) :
    ∃ ts asked, Sentence inet getIp (.chain op) (ts₀ ++ ts) node (asked₀ ++ asked) ∧
      s.ahead = ts ++ s'.ahead ∧ s'.asked = s.asked ++ asked := by
  -- Induction on the tokens ahead: the operator and its operand are consumed.
  induction hm : s.ahead.length using Nat.strong_induction_on generalizing s left ts₀ asked₀ with
  | _ m ih =>
  subst hm
  by_cases htoken : s.token = op.token
  · have hne : s.token ≠ .eof := htoken ▸ op.token_ne_eof
    have hlt := ParserState.length_ahead_nextToken_lt hne
    cases hright : parseLevel inet getIp op.operand s.nextToken with
    | mk right s₁ =>
    cases right with
    | none =>
      rw [operatorLoop_of_none htoken hright] at h
      cases (Prod.mk.inj h).1
    | some right =>
      rw [operatorLoop_of_some htoken hright] at h
      obtain ⟨us, asked₁, hsentence, hahead₁, hasked₁⟩ :=
        hoperand s.nextToken (by omega) right s₁ hright
      have hlen : s₁.ahead.length < s.ahead.length := by
        rw [hahead₁, length_append] at hlt
        omega
      obtain ⟨ts, asked, hmore, hahead, hasked⟩ :=
        ih s₁.ahead.length hlen (by omega) (.more hleft hsentence) h rfl
      refine ⟨op.token :: us ++ ts, asked₁ ++ asked, ?_, ?_, ?_⟩
      · rwa [← append_assoc, ← append_assoc]
      · rw [ParserState.ahead_eq_cons hne, htoken, hahead₁, hahead]
        simp
      · rw [hasked, hasked₁, append_assoc]
        rfl
  · rw [operatorLoop_of_ne htoken] at h
    obtain ⟨hnode, rfl⟩ := Prod.mk.inj h
    obtain rfl := Option.some.inj hnode
    refine ⟨[], [], ?_, rfl, (append_nil _).symm⟩
    rwa [append_nil, append_nil]

/-- A chain of operands that is accepted is one. -/
theorem soundAt_chain {op : OperatorType} {n : ℕ}
    (hoperand : ∀ s : ParserState, s.ahead.length ≤ n → SoundAt inet getIp op.operand s)
    (hs : s.ahead.length ≤ n) : SoundAt inet getIp (.chain op) s := by
  intro node s' h
  cases hleft : parseLevel inet getIp op.operand s with
  | mk left s₁ =>
  cases left with
  | none =>
    rw [parseLevel_chain_of_none hleft] at h
    cases (Prod.mk.inj h).1
  | some left =>
    rw [parseLevel_chain_of_some hleft] at h
    obtain ⟨us, asked₁, hsentence, hahead₁, hasked₁⟩ := hoperand s hs left s₁ hleft
    have hlen : s₁.ahead.length ≤ n := by
      rw [hahead₁, length_append] at hs
      omega
    obtain ⟨ts, asked, hmore, hahead, hasked⟩ :=
      operatorLoop_sound hoperand hlen (.operand hsentence) h
    refine ⟨us ++ ts, asked₁ ++ asked, hmore, ?_, ?_⟩
    · rw [hahead₁, hahead, append_assoc]
    · rw [hasked, hasked₁, append_assoc]

/-- What the function of a level accepts is a sentence of it. -/
theorem parse_sound (level : Level) (s : ParserState) : SoundAt inet getIp level s := by
  -- Induction on the tokens ahead; at one number of tokens the levels follow from below.
  have hall : ∀ n, ∀ s : ParserState, s.ahead.length ≤ n →
      ∀ level, SoundAt inet getIp level s := by
    intro n
    induction n using Nat.strong_induction_on with
    | _ n ih =>
    have hfactor : ∀ s : ParserState, s.ahead.length ≤ n → SoundAt inet getIp .factor s := by
      intro s hs
      apply soundAt_factor
      intro hparen
      have hlt : s.nextToken.ahead.length < s.ahead.length :=
        ParserState.length_ahead_nextToken_lt (by rw [hparen]; exact Token.noConfusion)
      exact ih s.nextToken.ahead.length (by omega) s.nextToken (Nat.le_refl _) _
    have hterm : ∀ s : ParserState, s.ahead.length ≤ n → SoundAt inet getIp (.chain .and) s :=
      fun s hs => soundAt_chain hfactor hs
    intro s hs level
    cases level with
    | factor => exact hfactor s hs
    | chain op =>
      cases op with
      | and => exact hterm s hs
      | or => exact soundAt_chain hterm hs
  exact hall s.ahead.length s (Nat.le_refl _) level

end Soundness

/-! ## Completeness -/

section Completeness

/-- What may follow a sentence of a level for the function of the level to stop there, its own loop
apart: behind an expression no `and`, which would belong to its last term. -/
def Follows : Level → List Token → Prop
  | .chain .or, rest => rest.head? ≠ some .and
  | .chain .and, _ => True
  | .factor, _ => True

variable (inet : Inet) (getIp : GetIfIpAddr)

/-- How a level goes on behind a sentence: the loop of a chain may find more. -/
def finish (level : Level) (node : Node) (s : ParserState) : Option Node × ParserState :=
  match level with
  | .chain op => (operatorLoop inet getIp op node s).val
  | .factor => (some node, s)

variable {inet getIp}

variable {s : ParserState} {rest : List Token}

theorem ParserState.of_ahead_eq_cons {t : Token} (h : s.ahead = t :: rest) :
    s.token = t ∧ s.nextToken.ahead = rest := by
  have hne : s.token ≠ .eof := by
    intro heof
    rw [ParserState.ahead, if_pos heof] at h
    cases h
  rw [ParserState.ahead_eq_cons hne] at h
  exact List.cons.inj h

theorem ParserState.token_ne_of_head? {t : Token} (h : s.ahead.head? ≠ some t) (ht : t ≠ .eof) :
    s.token ≠ t := by
  rintro rfl
  rw [ParserState.ahead_eq_cons ht] at h
  exact h rfl

theorem finish_operand {op : OperatorType} {node : Node} (h : Follows (.chain op) s.ahead) :
    finish inet getIp op.operand node s = (some node, s) := by
  cases op with
  | and => rfl
  | or =>
    apply operatorLoop_of_ne
    exact ParserState.token_ne_of_head? h Token.noConfusion

theorem follows_token (op : OperatorType) (rest : List Token) :
    Follows (.chain op) (op.token :: rest) := by
  cases op with
  | and => trivial
  | or => nofun

theorem follows_operand (op : OperatorType) (rest : List Token) : Follows op.operand rest := by
  cases op with
  | and | or => trivial

/-- A condition gives the node of its value, if it has one. -/
theorem parseCondition_complete {type : ConditionType} {value : List Char}
    (hahead : s.ahead = type.token :: .value value :: rest) :
    ∃ s', parseLevel inet getIp .factor s =
        ((createConditionNode inet getIp type value).1, s') ∧ s'.ahead = rest ∧
      s'.asked = s.asked ++ (createConditionNode inet getIp type value).2 := by
  obtain ⟨htoken, hnext⟩ := ParserState.of_ahead_eq_cons hahead
  obtain ⟨hvalue, hnext'⟩ := ParserState.of_ahead_eq_cons hnext
  have hparen : s.token ≠ .lparen := by
    rw [htoken]
    cases type <;> exact Token.noConfusion
  have hof : parseConditionOf inet getIp type s =
      ((createConditionNode inet getIp type value).1,
        { s.nextToken.nextToken with
          asked := s.asked ++ (createConditionNode inet getIp type value).2 }) := by
    rw [parseConditionOf, hvalue]
  refine ⟨{ s.nextToken.nextToken with
    asked := s.asked ++ (createConditionNode inet getIp type value).2 }, ?_, hnext', rfl⟩
  rw [parseLevel_factor_condition hparen, parseCondition, ← hof, htoken]
  cases type with
  | host | port => rfl

/-- Every sentence of a level is accepted by the function of the level. -/
theorem parse_complete {level : Level} {ts : List Token} {node : Node} {asked : List (List Char)}
    (h : Sentence inet getIp level ts node asked) (hahead : s.ahead = ts ++ rest)
    (hrest : Follows level rest) :
    ∃ s', parseLevel inet getIp level s = finish inet getIp level node s' ∧ s'.ahead = rest ∧
      s'.asked = s.asked ++ asked := by
  induction h generalizing s rest with
  | @operand op ts node asked _ ih =>
    obtain ⟨s', hparse, hahead', hasked⟩ := ih hahead (follows_operand op rest)
    rw [finish_operand (hahead' ▸ hrest)] at hparse
    exact ⟨s', parseLevel_chain_of_some hparse, hahead', hasked⟩
  | @more op ts us left right asked asked' _ _ ihleft ihright =>
    rw [append_assoc, cons_append] at hahead
    obtain ⟨s₁, hparse₁, hahead₁, hasked₁⟩ := ihleft hahead (follows_token op (us ++ rest))
    obtain ⟨htoken, hnext⟩ := ParserState.of_ahead_eq_cons hahead₁
    obtain ⟨s₂, hparse₂, hahead₂, hasked₂⟩ := ihright hnext (follows_operand op rest)
    rw [finish_operand (hahead₂ ▸ hrest)] at hparse₂
    refine ⟨s₂, hparse₁.trans (operatorLoop_of_some htoken hparse₂), hahead₂, ?_⟩
    rw [hasked₂, ← append_assoc, ← hasked₁]
    rfl
  | @paren ts node asked _ ih =>
    rw [cons_append, append_assoc] at hahead
    obtain ⟨htoken, hnext⟩ := ParserState.of_ahead_eq_cons hahead
    obtain ⟨s₁, hparse₁, hahead₁, hasked₁⟩ := ih hnext (by rintro ⟨⟩)
    obtain ⟨hclosed, hnext₁⟩ := ParserState.of_ahead_eq_cons hahead₁
    have hstop : parseLevel inet getIp (.chain .or) s.nextToken = (some node, s₁) := by
      rw [hparse₁]
      apply operatorLoop_of_ne
      rw [hclosed]
      exact Token.noConfusion
    refine ⟨s₁.nextToken, ?_, hnext₁, hasked₁⟩
    rw [parseLevel_factor_paren htoken hstop, if_pos hclosed]
    rfl
  | @condition type value node asked hnode =>
    obtain ⟨s', hparse, hahead', hasked⟩ := parseCondition_complete hahead
    rw [hnode] at hparse hasked
    exact ⟨s', hparse, hahead', hasked⟩

end Completeness

/-! ## Acceptance -/

section Acceptance

variable {inet : Inet} {getIp : GetIfIpAddr}

theorem ParserState.token_eq_eof_iff (s : ParserState) : s.token = .eof ↔ s.ahead = [] := by
  rw [ParserState.ahead]
  split_ifs with heof
  · exact ⟨fun _ => rfl, fun _ => heof⟩
  · exact ⟨fun h => absurd h heof, fun h => h.elim⟩

/-- **Acceptance**: a pattern is accepted exactly when its tokens are an expression. -/
theorem init_eq_some_iff (pattern : List Char) (node : Node) (asked : List (List Char)) :
    reqPatternCustomMatcherInit inet getIp pattern = (some node, asked) ↔
      Sentence inet getIp (.chain .or) (tokens pattern) node asked := by
  have hstart : (ParserState.nextToken ⟨pattern, .eof, []⟩).ahead = tokens pattern :=
    ParserState.ahead_nextToken _
  rw [reqPatternCustomMatcherInit]
  constructor
  · intro h
    split at h
    · cases (Prod.mk.inj h).1
    · next ast s' hparse =>
      by_cases heof : s'.token = .eof
      · rw [if_neg (not_not.mpr heof)] at h
        obtain ⟨hnode, rfl⟩ := Prod.mk.inj h
        obtain rfl := Option.some.inj hnode
        obtain ⟨ts, asked, hsentence, hahead, hasked⟩ := parse_sound (.chain .or) _ ast s' hparse
        rw [hstart, (ParserState.token_eq_eof_iff s').mp heof, append_nil] at hahead
        rw [hasked, hahead]
        exact hsentence
      · rw [if_pos heof] at h
        cases (Prod.mk.inj h).1
  · intro h
    obtain ⟨s', hparse, hahead, hasked⟩ :=
      parse_complete h (hstart.trans (append_nil _).symm) (by rintro ⟨⟩)
    have heof := (ParserState.token_eq_eof_iff s').mpr hahead
    have hstop : (parseExpression inet getIp (ParserState.nextToken ⟨pattern, .eof, []⟩)).val =
        (some node, s') := by
      refine Eq.trans hparse (operatorLoop_of_ne ?_)
      rw [heof]
      exact Token.noConfusion
    rw [hstop]
    dsimp only
    rw [if_neg (not_not.mpr heof), hasked]
    rfl

end Acceptance

end CloudProbe.Worker
