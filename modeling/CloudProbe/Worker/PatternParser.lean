import CloudProbe.Worker.PatternLexer

/-!
# The parser of custom patterns

The parser looks one token ahead, which stands in a variable that all its functions share; here it
is a member of the state they hand on (`ParserState`), next to the input that is left and the names
`get_ip` was asked for. `parse_expression` and `parse_term` are one loop over an operator with
another operand each (`parseChain`).

Every function returns with no more tokens ahead than it was called with, as part of its result
(`NodeResult`), and every loop and recursion consumes a token in between. So the functions are
total: the parser ends on every input.

Sources without a file are in `req_pattern.c`.
-/

namespace CloudProbe.Worker

/-- `ConditionType`.
Source: `req_pattern.c` -/
inductive ConditionType where
  | host
  | port
deriving DecidableEq, Repr

/-- `OperatorType`.
Source: `req_pattern.c` -/
inductive OperatorType where
  | and
  | or
deriving DecidableEq, Repr

/-- The keyword of a condition.
Source: `parse_condition` -/
def ConditionType.token : ConditionType → Token
  | .host => .host
  | .port => .port

/-- The keyword of an operator.
Source: `parse_expression`, `parse_term` -/
def OperatorType.token : OperatorType → Token
  | .and => .and
  | .or => .or

def createOperatorNode : OperatorType → Node → Node → Node
  | .and, left, right => .and left right
  | .or, left, right => .or left right

/-- The port that a value names. A plain decimal starts with a digit, so that `strtol` reads the
digits from its start on.
Source: `create_condition_node` -/
def portOfValue (value : List Char) : Option UInt16 :=
  let plainDecimal :=
    value.head?.any Char.isDigit && !(value.head? = some '0' && (value.drop 1 ≠ []))
  let port := Nat.ofDigitChars 10 (value.takeWhile Char.isDigit) 0
  if !plainDecimal ∨ 2 ^ 63 ≤ port ∨ value.dropWhile Char.isDigit ≠ [] ∨ 65535 < port then none
  else some (UInt16.ofNat port)

section Condition

variable (inet : Inet) (getIp : GetIfIpAddr)

/-- The node, `none` being `NULL`, and the names `get_ip` was asked for.
Source: `create_condition_node` -/
def createConditionNode (type : ConditionType) (value : List Char) :
    Option Node × List (List Char) :=
  match type with
  | .host =>
    if nicTokenPrefix.isPrefixOf value then
      ((getIp (value.drop nicTokenPrefix.length)).map .host, [value.drop nicTokenPrefix.length])
    else
      match inet.pton4 value with
      | some addr => (some (.host (.v4 addr)), [])
      | none =>
        match inet.pton6 value with
        | some addr => (some (.host (.v6 addr)), [])
        | none => (none, [])
  | .port => ((portOfValue value).map .port, [])

/-- The variables `input` and `current_token`, and the names `get_ip` was asked for so far.
Source: `req_pattern.c` -/
structure ParserState where
  input : List Char
  token : Token
  asked : List (List Char)
deriving DecidableEq, Repr

namespace ParserState

def nextToken (s : ParserState) : ParserState :=
  { s with token := (getNextToken s.input).1, input := (getNextToken s.input).2 }

def ahead (s : ParserState) : List Token :=
  if s.token = .eof then [] else s.token :: tokens s.input

theorem ahead_nextToken (s : ParserState) : s.nextToken.ahead = tokens s.input := by
  rw [ahead, nextToken]
  dsimp only
  split_ifs with heof
  · exact (tokens_of_eof heof).symm
  · exact (tokens_of_ne_eof heof).symm

theorem ahead_eq_cons {s : ParserState} (h : s.token ≠ .eof) :
    s.ahead = s.token :: s.nextToken.ahead := by
  rw [ahead, if_neg h, ahead_nextToken]

theorem length_ahead_nextToken_lt {s : ParserState} (h : s.token ≠ .eof) :
    s.nextToken.ahead.length < s.ahead.length := by
  rw [ahead_eq_cons h]
  exact Nat.lt_succ_self _

end ParserState

/-- A condition behind its keyword.
Source: `parse_condition` -/
def parseConditionOf (type : ConditionType) (s : ParserState) : Option Node × ParserState :=
  match s.nextToken.token with
  | .value value =>
    ((createConditionNode inet getIp type value).1,
      { s.nextToken.nextToken with
        asked := s.asked ++ (createConditionNode inet getIp type value).2 })
  | _ => (none, s.nextToken)

def parseCondition (s : ParserState) : Option Node × ParserState :=
  if s.token = .host then parseConditionOf inet getIp .host s
  else if s.token = .port then parseConditionOf inet getIp .port s
  else (none, s)

theorem length_ahead_parseCondition_le (s : ParserState) :
    (parseCondition inet getIp s).2.ahead.length ≤ s.ahead.length := by
  have hstep : ∀ type : ConditionType, s.token = type.token →
      (parseConditionOf inet getIp type s).2.ahead.length ≤ s.ahead.length := by
    intro type htype
    have hne : s.token ≠ .eof := by
      rw [htype]
      cases type <;> exact Token.noConfusion
    have hlt := ParserState.length_ahead_nextToken_lt hne
    rw [parseConditionOf]
    split
    · next value hvalue =>
      have hne' : s.nextToken.token ≠ .eof := by
        rw [hvalue]
        exact Token.noConfusion
      have hlt' := ParserState.length_ahead_nextToken_lt hne'
      exact Nat.le_trans (Nat.le_of_lt hlt') (Nat.le_of_lt hlt)
    · exact Nat.le_of_lt hlt
  rw [parseCondition]
  split_ifs with hhost hport
  · exact hstep .host hhost
  · exact hstep .port hport
  · exact Nat.le_refl _

end Condition

/-! ## The functions of the parser -/

/-- A result from the state `s`: the node, `none` being `NULL`, and the state behind it, with no
more tokens ahead. -/
abbrev NodeResult (s : ParserState) : Type :=
  { result : Option Node × ParserState // result.2.ahead.length ≤ s.ahead.length }

def NodeResult.within {s s' : ParserState} (h : s'.ahead.length ≤ s.ahead.length)
    (result : NodeResult s') :
    NodeResult s := ⟨result.val, Nat.le_trans result.prop h⟩

/-- The level of an operator in the recursion. -/
def OperatorType.level : OperatorType → ℕ
  | .and => 2
  | .or => 4

theorem OperatorType.token_ne_eof (op : OperatorType) : op.token ≠ .eof := by
  cases op <;> exact Token.noConfusion

section Parser

variable (inet : Inet) (getIp : GetIfIpAddr)

mutual

/-- An operand and the loop behind it.
Source: `parse_expression`, `parse_term` -/
def parseChain (op : OperatorType) (s : ParserState) : NodeResult s :=
  match parseOperand op s with
  | ⟨(none, s'), h⟩ => ⟨(none, s'), h⟩
  | ⟨(some left, s'), h⟩ => (operatorLoop op left s').within h
termination_by (s.ahead.length, op.level + 1)
decreasing_by
  · exact Prod.Lex.right _ (Nat.lt_succ_self _)
  · exact Prod.Lex.right' _ h (Nat.succ_pos _)

/-- The loop over the operators, from the node on its left.
Source: `parse_expression`, `parse_term` -/
def operatorLoop (op : OperatorType) (left : Node) (s : ParserState) : NodeResult s :=
  if h : s.token = op.token then
    have hlt := ParserState.length_ahead_nextToken_lt (h ▸ op.token_ne_eof)
    match parseOperand op s.nextToken with
    | ⟨(none, s'), h'⟩ => ⟨(none, s'), Nat.le_trans h' (Nat.le_of_lt hlt)⟩
    | ⟨(some right, s'), h'⟩ =>
      (operatorLoop op (createOperatorNode op left right) s').within
        (Nat.le_trans h' (Nat.le_of_lt hlt))
  else ⟨(some left, s), Nat.le_refl _⟩
termination_by (s.ahead.length, 0)
decreasing_by
  · exact Prod.Lex.left _ _ hlt
  · exact Prod.Lex.left _ _ (Nat.lt_of_le_of_lt h' hlt)

/-- The operands of `or` are terms, those of `and` factors.
Source: `parse_expression`, `parse_term` -/
def parseOperand (op : OperatorType) (s : ParserState) : NodeResult s :=
  match op with
  | .or => parseChain .and s
  | .and => parseFactor s
termination_by (s.ahead.length, op.level)
decreasing_by
  · exact Prod.Lex.right _ (by decide)
  · exact Prod.Lex.right _ (by decide)

def parseFactor (s : ParserState) : NodeResult s :=
  if h : s.token = .lparen then
    have hlt := ParserState.length_ahead_nextToken_lt (h ▸ (nofun : Token.lparen ≠ .eof))
    match parseChain .or s.nextToken with
    | ⟨(expr, s'), h'⟩ =>
      if hclosed : s'.token = .rparen then
        have hlt' := ParserState.length_ahead_nextToken_lt
          (hclosed ▸ (nofun : Token.rparen ≠ .eof))
        ⟨(expr, s'.nextToken),
          Nat.le_trans (Nat.le_of_lt hlt') (Nat.le_trans h' (Nat.le_of_lt hlt))⟩
      else ⟨(none, s'), Nat.le_trans h' (Nat.le_of_lt hlt)⟩
  else ⟨parseCondition inet getIp s, length_ahead_parseCondition_le inet getIp s⟩
termination_by (s.ahead.length, 1)
decreasing_by exact Prod.Lex.left _ _ hlt

end

def parseExpression (s : ParserState) : NodeResult s := parseChain inet getIp .or s

def parseTerm (s : ParserState) : NodeResult s := parseChain inet getIp .and s

/-- The matcher's tree, `none` being the result -1, and the names `get_ip` was asked for.
Source: `req_pattern_custom_matcher_init` -/
def reqPatternCustomMatcherInit (pattern : List Char) : Option Node × List (List Char) :=
  let s : ParserState := ParserState.nextToken ⟨pattern, .eof, []⟩
  match (parseExpression inet getIp s).val with
  | (none, s') => (none, s'.asked)
  | (some ast, s') => if s'.token ≠ .eof then (none, s'.asked) else (some ast, s'.asked)

end Parser

end CloudProbe.Worker
