import CloudProbe.Worker.PatternRoundTrip
import CloudProbe.Worker.NicFilter

/-!
# Interface names in patterns and in filters

An interface is written `nic.<name>` in a custom pattern, behind `host`, and in a BPF filter.

* **In a filter** (`filter_asks`) the name is the rest of the token, whatever its characters.
* **In a pattern** a value also ends before `and` and `or` where no letter or digit follows. So the
  name that `get_ip` is asked for is the one that is written if and only if no such word starts in
  it (`Uncut`); of `vendor` it is `vend`.
* **The rest of a pattern** (`sentence_hole`): a host condition may be exchanged for another one,
  and what is asked for before and behind it does not change.
-/

namespace CloudProbe.Worker

open List

/-! ## A condition in a pattern -/

section Hole

variable {inet : Inet} {getIp : GetIfIpAddr}

theorem hole_cases {ts us before after : List Token} {x : Token} {w : List Char} (hx : x ≠ .host)
    (hx' : x ≠ .value w) (h : ts ++ x :: us = before ++ .host :: .value w :: after) :
    (∃ rest, ts = before ++ .host :: .value w :: rest ∧ after = rest ++ x :: us) ∨
      ∃ rest, before = ts ++ x :: rest ∧ us = rest ++ .host :: .value w :: after := by
  obtain ⟨mid, hbefore, hmid⟩ | ⟨mid, hts, hmid⟩ := append_eq_append_iff.mp h
  · right
    cases mid with
    | nil => exact absurd (List.cons.inj hmid).1 hx
    | cons y mid =>
      obtain ⟨rfl, hus⟩ := List.cons.inj hmid
      exact ⟨mid, hbefore, hus⟩
  · left
    cases mid with
    | nil => exact absurd (List.cons.inj hmid).1.symm hx
    | cons y mid =>
      obtain ⟨rfl, hvalue⟩ := List.cons.inj hmid
      cases mid with
      | nil => exact absurd (List.cons.inj hvalue).1.symm hx'
      | cons y mid =>
        obtain ⟨rfl, hafter⟩ := List.cons.inj hvalue
        exact ⟨mid, hts, hafter⟩

variable (inet getIp) in
/-- A host condition may stand between the tokens: a valid one gives a sentence with its node filled
in, an invalid one ends the parse; `first` and `last` are the names asked for before and behind
it. -/
def Hole (level : Level) (before after : List Token) (fill : Node → Node)
    (first last : List (List Char)) : Prop :=
  (∀ v node, (createConditionNode inet getIp .host v).1 = some node →
    Sentence inet getIp level (before ++ .host :: .value v :: after) (fill node)
      (first ++ (createConditionNode inet getIp .host v).2 ++ last)) ∧
  ∀ v, (createConditionNode inet getIp .host v).1 = none → ∀ s rest,
    s.ahead = (before ++ .host :: .value v :: after) ++ rest →
    ∃ s', parseLevel inet getIp level s = (none, s') ∧
      s'.asked = s.asked ++ first ++ (createConditionNode inet getIp .host v).2

namespace Hole

variable {op : OperatorType} {level : Level} {before after : List Token} {fill : Node → Node}
  {first last : List (List Char)}

theorem operand (h : Hole inet getIp op.operand before after fill first last) :
    Hole inet getIp (.chain op) before after fill first last := by
  refine ⟨fun v node hv => .operand (h.1 v node hv), ?_⟩
  intro v hv s rest hahead
  obtain ⟨s', hparse, hasked⟩ := h.2 v hv s rest hahead
  exact ⟨s', parseLevel_chain_of_none hparse, hasked⟩

theorem left {us : List Token} {right : Node} {asked' : List (List Char)}
    (h : Hole inet getIp (.chain op) before after fill first last)
    (hright : Sentence inet getIp op.operand us right asked') :
    Hole inet getIp (.chain op) before (after ++ op.token :: us)
      (fun n => createOperatorNode op (fill n) right) first (last ++ asked') := by
  constructor
  · intro v node hv
    have hmore := Sentence.more (h.1 v node hv) hright
    simpa only [append_assoc, cons_append] using hmore
  · intro v hv s rest hahead
    apply h.2 v hv s (op.token :: us ++ rest)
    simpa only [append_assoc, cons_append] using hahead

/-- A place in the last operand of a chain. -/
theorem right {ts : List Token} {left : Node} {asked : List (List Char)}
    (hleft : Sentence inet getIp (.chain op) ts left asked)
    (h : Hole inet getIp op.operand before after fill first last) :
    Hole inet getIp (.chain op) (ts ++ op.token :: before) after
      (fun n => createOperatorNode op left (fill n)) (asked ++ first) last := by
  constructor
  · intro v node hv
    have hmore := Sentence.more hleft (h.1 v node hv)
    simpa only [append_assoc, cons_append] using hmore
  · intro v hv s rest hahead
    simp only [append_assoc, cons_append] at hahead
    obtain ⟨s₁, hparse₁, hahead₁, hasked₁⟩ := parse_complete hleft hahead (follows_token op _)
    obtain ⟨htoken, hnext⟩ := ParserState.of_ahead_eq_cons hahead₁
    obtain ⟨s₂, hparse₂, hasked₂⟩ := h.2 v hv s₁.nextToken rest (by
      simpa only [append_assoc, cons_append] using hnext)
    refine ⟨s₂, hparse₁.trans (operatorLoop_of_none htoken hparse₂), ?_⟩
    rw [hasked₂, ← append_assoc, ← hasked₁]
    rfl

/-- A place inside parentheses. -/
theorem paren (h : Hole inet getIp (.chain .or) before after fill first last) :
    Hole inet getIp .factor (.lparen :: before) (after ++ [.rparen]) fill first last := by
  constructor
  · intro v node hv
    have hparen := Sentence.paren (h.1 v node hv)
    simpa only [append_assoc, cons_append] using hparen
  · intro v hv s rest hahead
    simp only [append_assoc, cons_append, nil_append] at hahead
    obtain ⟨htoken, hnext⟩ := ParserState.of_ahead_eq_cons hahead
    obtain ⟨s₁, hparse₁, hasked₁⟩ := h.2 v hv s.nextToken (.rparen :: rest) (by
      simpa only [append_assoc, cons_append] using hnext)
    rw [parseLevel_factor_paren htoken hparse₁]
    split_ifs with hclosed
    · exact ⟨s₁.nextToken, rfl, hasked₁⟩
    · exact ⟨s₁, rfl, hasked₁⟩

theorem condition : Hole inet getIp .factor [] [] id [] [] := by
  constructor
  · intro v node hv
    rw [append_nil]
    exact .condition (Prod.ext hv rfl)
  · intro v hv s rest hahead
    have hahead' : s.ahead = ConditionType.host.token :: .value v :: rest := hahead
    obtain ⟨s', hparse, -, hasked⟩ := parseCondition_complete hahead'
    rw [hv] at hparse
    refine ⟨s', hparse, ?_⟩
    rw [hasked, append_nil]

end Hole

/-- **The place of a host condition** in a sentence is one for every other host condition. -/
theorem sentence_hole {level : Level} {ts before after : List Token} {node : Node}
    {asked : List (List Char)} {w : List Char} (h : Sentence inet getIp level ts node asked)
    (hts : ts = before ++ .host :: .value w :: after) :
    ∃ fill first last, asked = first ++ (createConditionNode inet getIp .host w).2 ++ last ∧
      Hole inet getIp level before after fill first last := by
  induction h generalizing before after with
  | @operand op ts node asked _ ih =>
    obtain ⟨fill, first, last, hasked, hhole⟩ := ih hts
    exact ⟨fill, first, last, hasked, hhole.operand⟩
  | @more op ts us left right asked asked' hleft hright ihleft ihright =>
    have hhost : op.token ≠ .host := by cases op <;> exact Token.noConfusion
    have hvalue : op.token ≠ .value w := by cases op <;> exact Token.noConfusion
    obtain ⟨after', rfl, rfl⟩ | ⟨before', rfl, rfl⟩ := hole_cases hhost hvalue hts
    · obtain ⟨fill, first, last, hasked, hhole⟩ := ihleft rfl
      refine ⟨_, first, last ++ asked', ?_, hhole.left hright⟩
      rw [hasked, append_assoc]
    · obtain ⟨fill, first, last, hasked, hhole⟩ := ihright rfl
      refine ⟨_, asked ++ first, last, ?_, hhole.right hleft⟩
      rw [hasked]
      simp only [append_assoc]
  | @paren ts node asked hinside ih =>
    cases before with
    | nil => cases (List.cons.inj hts).1
    | cons y before =>
      obtain ⟨rfl, hclose⟩ := List.cons.inj hts
      obtain ⟨after', rfl, rfl⟩ | ⟨before', -, hnil⟩ :=
        hole_cases Token.noConfusion Token.noConfusion hclose
      · obtain ⟨fill, first, last, hasked, hhole⟩ := ih rfl
        exact ⟨fill, first, last, hasked, hhole.paren⟩
      · simp at hnil
  | @condition type value node asked hnode =>
    have hlen := congrArg List.length hts
    simp only [length_cons, length_append, length_nil] at hlen
    obtain rfl : before = [] := eq_nil_of_length_eq_zero (by omega)
    obtain rfl : after = [] := eq_nil_of_length_eq_zero (by omega)
    obtain ⟨htype, hvalue⟩ := List.cons.inj hts
    obtain rfl : value = w := Token.value.inj (List.cons.inj hvalue).1
    obtain rfl : type = .host := by
      cases type with
      | host => rfl
      | port => cases htype
    refine ⟨id, [], [], ?_, .condition⟩
    rw [hnode]
    simp

end Hole

/-! ## Patterns with an interface -/

/-- A place for the value of a host condition in a pattern: `before host<space>value after`, cut off
on both sides by white space, a parenthesis or an end. -/
structure Place where
  before : List Char
  space : List Char
  after : List Char
  before_cut : before ≠ [] → ∃ text c, before = text ++ [c] ∧ isDelim c = true
  space_ne : space ≠ []
  space_all : ∀ c ∈ space, isspace c = true
  after_cut : ∀ c ∈ after.head?, isDelim c = true

def Place.pattern (place : Place) (value : List Char) : List Char :=
  place.before ++ (hostWord ++ (place.space ++ (value ++ place.after)))

section Pattern

variable {inet : Inet} {getIp : GetIfIpAddr}

variable {rest : List Char}

theorem tokens_space_append {space : List Char} (h : ∀ c ∈ space, isspace c = true) :
    tokens (space ++ rest) = tokens rest := by
  induction space with
  | nil => rfl
  | cons c space ih =>
    rw [forall_mem_cons] at h
    rw [cons_append, tokens_cons_of_isspace h.1, ih h.2]

theorem Place.tokens_pattern (place : Place) (value : List Char) :
    tokens (place.pattern value) =
      tokens place.before ++ .host :: (tokens value ++ tokens place.after) := by
  have hword : tokens hostWord = [.host] := by decide +kernel
  have hspace : Cut hostWord (place.space ++ (value ++ place.after)) := by
    right
    intro c hc
    rw [List.head?_append_of_ne_nil _ place.space_ne] at hc
    rw [isDelim, place.space_all c (mem_of_mem_head? hc)]
    rfl
  rw [Place.pattern, tokens_append place.before fun hne => .inl (place.before_cut hne),
    tokens_append hostWord fun _ => hspace, hword, tokens_space_append place.space_all,
    tokens_append value fun _ => .inr place.after_cut]
  rfl

theorem keywordAt_cons_of_ne {c d : Char} {word : List Char} (h : d ≠ c) :
    keywordAt (d :: word) (c :: rest) = false := by
  have hfirst : (d == c) = false := beq_false_of_ne h
  rw [keywordAt, List.isPrefixOf, hfirst]
  rfl

theorem readValue_cons {c : Char} (hdelim : isDelim c = false) (ha : 'a' ≠ c) (ho : 'o' ≠ c) :
    readValue (c :: rest) = (c :: (readValue rest).1, (readValue rest).2) := by
  have hand : keywordAt andWord (c :: rest) = false := keywordAt_cons_of_ne ha
  have hor : keywordAt orWord (c :: rest) = false := keywordAt_cons_of_ne ho
  rw [readValue, hdelim, hand, hor]
  rfl

theorem readValue_nic (name : List Char) :
    readValue (nicTokenPrefix ++ name) =
      (nicTokenPrefix ++ (readValue name).1, (readValue name).2) := by
  simp only [nicTokenPrefix, cons_append, nil_append]
  rw [readValue_cons rfl (by decide) (by decide), readValue_cons rfl (by decide) (by decide),
    readValue_cons rfl (by decide) (by decide), readValue_cons rfl (by decide) (by decide)]

/-- The token of an interface ends where an operator cuts it. -/
theorem getNextToken_nic {name : List Char} (hsolid : Solid name) :
    getNextToken (nicTokenPrefix ++ name) =
      (.value (nicTokenPrefix ++ (readValue name).1), (readValue name).2) := by
  have hsolid' : Solid (nicTokenPrefix ++ name) := by
    simp only [Solid, nicTokenPrefix, cons_append, nil_append, forall_mem_cons]
    exact ⟨rfl, rfl, rfl, rfl, hsolid⟩
  have hword : ∀ (c : Char) (word : List Char), c ≠ 'n' →
      keywordAt (c :: word) (nicTokenPrefix ++ name) = false :=
    fun c word hc => keywordAt_cons_of_ne hc
  have hne : nicTokenPrefix ++ name ≠ [] := cons_ne_nil _ _
  rw [getNextToken_word hne hsolid' (hword _ _ (by decide))
    (hword _ _ (by decide)) (hword _ _ (by decide)) (hword _ _ (by decide)), readValue_nic]

theorem tokens_nic {name : List Char} (hsolid : Solid name) (huncut : Uncut name) :
    tokens (nicTokenPrefix ++ name) = [.value (nicTokenPrefix ++ name)] := by
  refine tokens_of_one ?_ Token.noConfusion
  rw [getNextToken_nic hsolid, readValue_of_uncut hsolid huncut]

theorem createConditionNode_nic (name : List Char) :
    createConditionNode inet getIp .host (nicTokenPrefix ++ name) =
      ((getIp name).map .host, [name]) := by
  rw [createConditionNode, if_pos ( isPrefixOf_iff_prefix.mpr (prefix_append _ _)), drop_left]

theorem init_of_none {pattern : List Char} {s' : ParserState}
    (h : parseLevel inet getIp (.chain .or) (ParserState.nextToken ⟨pattern, .eof, []⟩) =
      (none, s')) :
    reqPatternCustomMatcherInit inet getIp pattern = (none, s'.asked) := by
  have hparse : (parseExpression inet getIp (ParserState.nextToken ⟨pattern, .eof, []⟩)).val =
      (none, s') := h
  rw [reqPatternCustomMatcherInit, hparse]

theorem init_of_invalid {pattern value : List Char} {rest : List Token}
    (htokens : tokens pattern = .host :: .value value :: rest)
    (hinvalid : (createConditionNode inet getIp .host value).1 = none) :
    reqPatternCustomMatcherInit inet getIp pattern =
      (none, (createConditionNode inet getIp .host value).2) := by
  have hahead : (ParserState.nextToken ⟨pattern, .eof, []⟩).ahead =
      ConditionType.host.token :: .value value :: rest := by
    rw [ParserState.ahead_nextToken, htokens]
    rfl
  obtain ⟨s', hparse, -, hasked⟩ := @parseCondition_complete inet getIp _ _ _ _ hahead
  rw [hinvalid] at hparse
  have hterm : parseLevel inet getIp (.chain .and) (ParserState.nextToken ⟨pattern, .eof, []⟩) =
      (none, s') := parseLevel_chain_of_none hparse
  rw [init_of_none (parseLevel_chain_of_none hterm), hasked]
  rfl

end Pattern

/-! ## The names that are asked for -/

variable {inet : Inet}

/-- In a pattern: wherever a host condition with an address is accepted, `nic.<name>` makes the
parser ask for the name. With an address the pattern is understood as the one with the address in
its place, without one it is rejected at once. -/
def PatternAsks (inet : Inet) (name : List Char) : Prop :=
  ∀ (getIp : GetIfIpAddr) (place : Place) (addr₀ : IpAddr) (node₀ : Node)
    (asked₀ : List (List Char)),
    reqPatternCustomMatcherInit inet getIp (place.pattern (inet.formatIpAddr addr₀)) =
        (some node₀, asked₀) →
      ∃ first last, asked₀ = first ++ last ∧
        (∀ addr, getIp name = some addr → ∃ node,
          reqPatternCustomMatcherInit inet getIp (place.pattern (inet.formatIpAddr addr)) =
              (some node, first ++ last) ∧
            reqPatternCustomMatcherInit inet getIp (place.pattern (nicTokenPrefix ++ name)) =
              (some node, first ++ name :: last)) ∧
        (getIp name = none →
          reqPatternCustomMatcherInit inet getIp (place.pattern (nicTokenPrefix ++ name)) =
            (none, first ++ [name]))

/-- In a filter: wherever the token `nic.<name>` stands behind a part that can be replaced,
`get_ip` is asked for the name next. -/
def FilterAsks (inet : Inet) (name : List Char) : Prop :=
  ∀ (canAlloc : ℕ → Bool) (getIp : GetIfIpAddr) (before after : List Char),
    (∀ n, canAlloc n = true) → (∀ c ∈ before.getLast?, isTokenDelim c = true) →
    (∀ c ∈ after.head?, isTokenDelim c = true) →
    (∃ out, (bpfFilterReplaceNic canAlloc inet getIp before).1 = .ok out) →
      ∃ last, (bpfFilterReplaceNic canAlloc inet getIp
          (before ++ ((nicTokenPrefix ++ name) ++ after))).2 =
        (bpfFilterReplaceNic canAlloc inet getIp before).2 ++ name :: last

theorem resolveAll_append {getIp : GetIfIpAddr} {ps : List (List Char)}
    {text : List Char} (h : (resolveAll inet getIp ps).1 = some text) (qs : List (List Char)) :
    (resolveAll inet getIp (ps ++ qs)).2 =
      (resolveAll inet getIp ps).2 ++ (resolveAll inet getIp qs).2 := by
  induction ps generalizing text with
  | nil => rfl
  | cons piece ps ih =>
    rw [resolveAll] at h
    rw [cons_append, resolveAll, resolveAll]
    dsimp only at h ⊢
    split_ifs at h ⊢ with hnic hlen
    · cases hip : getIp (piece.drop nicTokenPrefix.length) with
      | none =>
        rw [hip] at h
        cases h
      | some addr =>
        rw [hip] at h
        obtain ⟨rest, hrest, -⟩ := Option.map_eq_some_iff.mp h
        dsimp only
        rw [ih hrest, cons_append]
    · obtain ⟨rest, hrest, -⟩ := Option.map_eq_some_iff.mp h
      exact ih hrest

variable {name : List Char}

/-- A filter asks for every name without delimiters. -/
theorem filter_asks (hlen : 1 ≤ name.length ∧ name.length ≤ 15)
    (hname : ∀ c ∈ name, isTokenDelim c = false) : FilterAsks inet name := by
  intro canAlloc getIp before after halloc hbefore hafter hok
  obtain ⟨hyields, hasked⟩ := bpfFilterReplaceNic_resolveAll halloc inet getIp before
  have hresolved : ∃ text, (resolveAll inet getIp (pieces before)).1 = some text := by
    obtain ⟨out, hout⟩ := hok
    cases hresolve : (resolveAll inet getIp (pieces before)).1 with
    | none =>
      rw [hresolve, hout] at hyields
      obtain ⟨message, hmessage⟩ := hyields
      cases hmessage
    | some text => exact ⟨text, rfl⟩
  obtain ⟨text, htext⟩ := hresolved
  have hsolid : ∀ c ∈ nicTokenPrefix ++ name, isTokenDelim c = false := by
    intro c hc
    obtain hc | hc := mem_append.mp hc
    · exact not_isTokenDelim_nic c hc
    · exact hname c hc
  have htoken : pieces (nicTokenPrefix ++ name) = [nicTokenPrefix ++ name] :=
    pieces_of_not_isTokenDelim (cons_ne_nil _ _) hsolid
  have hpieces : pieces (before ++ ((nicTokenPrefix ++ name) ++ after)) =
      pieces before ++ ((nicTokenPrefix ++ name) :: pieces after) := by
    rw [pieces_append fun c hc _ _ => .inl (hbefore c hc),
      pieces_append fun _ _ d hd => .inr (hafter d hd), htoken]
    rfl
  have hvalid : ¬ (name.length = 0 ∨ ifNamesize ≤ name.length) := by
    rw [ifNamesize]
    omega
  rw [(bpfFilterReplaceNic_resolveAll halloc inet getIp _).2, hasked, hpieces,
    resolveAll_append htext]
  cases hip : getIp name with
  | none => exact ⟨[], by rw [resolveAll_of_none hvalid hip]⟩
  | some addr => exact ⟨_, by rw [resolveAll_of_some hvalid hip]⟩

/-- A name that is not cut is the one a pattern asks for. -/
theorem pattern_asks (hsolid : Solid name) (huncut : Uncut name) :
    PatternAsks inet name := by
  intro getIp place addr₀ node₀ asked₀ haccepted
  have htokens : ∀ addr, tokens (place.pattern (inet.formatIpAddr addr)) =
      tokens place.before ++ .host :: .value (inet.formatIpAddr addr) :: tokens place.after := by
    intro addr
    obtain ⟨hne, hchars⟩ := inet.formatIpAddr_text addr
    rw [place.tokens_pattern, tokens_addrChars hne hchars]
    rfl
  have hnic : tokens (place.pattern (nicTokenPrefix ++ name)) =
      tokens place.before ++ .host :: .value (nicTokenPrefix ++ name) :: tokens place.after := by
    rw [place.tokens_pattern, tokens_nic hsolid huncut]
    rfl
  obtain ⟨fill, first, last, hasked, hvalid, hinvalid⟩ :=
    sentence_hole ((init_eq_some_iff _ _ _).mp haccepted) (htokens addr₀)
  refine ⟨first, last, ?_, ?_, ?_⟩
  · rw [hasked, createConditionNode_formatIpAddr, append_nil]
  · intro addr hip
    refine ⟨fill (.host addr), ?_, ?_⟩
    · rw [init_eq_some_iff, htokens]
      have hsentence := hvalid (inet.formatIpAddr addr) (.host addr)
        (by rw [createConditionNode_formatIpAddr])
      rwa [createConditionNode_formatIpAddr, append_nil] at hsentence
    · rw [init_eq_some_iff, hnic]
      have hsentence := hvalid (nicTokenPrefix ++ name) (.host addr)
        (by rw [createConditionNode_nic, hip]; rfl)
      rwa [createConditionNode_nic, append_assoc] at hsentence
  · intro hip
    obtain ⟨s', hparse, hasked'⟩ := hinvalid (nicTokenPrefix ++ name)
      (by rw [createConditionNode_nic, hip]; rfl)
      (ParserState.nextToken ⟨place.pattern (nicTokenPrefix ++ name), .eof, []⟩) []
      (by rw [ParserState.ahead_nextToken, hnic, append_nil])
    rw [createConditionNode_nic] at hasked'
    rw [init_of_none hparse, hasked']
    rfl

def lonePlace : Place where
  before := []
  space := [' ']
  after := []
  before_cut h := absurd rfl h
  space_ne := cons_ne_nil _ _
  space_all := by simp [isspace, Lib.isSpaceCode]
  after_cut := by simp

theorem tokens_lonePlace (value : List Char) :
    tokens (lonePlace.pattern value) = .host :: tokens value := by
  rw [lonePlace.tokens_pattern]
  simp only [lonePlace, tokens_nil, nil_append, append_nil]

/-- A name that a pattern asks for is not cut. -/
theorem uncut_of_patternAsks (hsolid : Solid name) (h : PatternAsks inet name) : Uncut name := by
  -- The pattern `host nic.<name>` where no interface has an address.
  have haccepted : reqPatternCustomMatcherInit inet (fun _ => none)
      (lonePlace.pattern (inet.formatIpAddr (.v4 0))) = (some (.host (.v4 0)), []) := by
    obtain ⟨hne, hchars⟩ := inet.formatIpAddr_text (.v4 0)
    rw [init_eq_some_iff, tokens_lonePlace, tokens_addrChars hne hchars]
    have hfactor := Sentence.condition
      (createConditionNode_formatIpAddr inet (fun _ => none) (.v4 0))
    have hterm : Sentence inet (fun _ => none) OperatorType.or.operand _ _ _ :=
      Sentence.operand hfactor
    exact .operand hterm
  obtain ⟨first, last, hnil, -, hnone⟩ := h (fun _ => none) lonePlace (.v4 0) _ _ haccepted
  obtain ⟨rfl, rfl⟩ := append_eq_nil_iff.mp hnil.symm
  have hnext := getNextToken_nic hsolid
  have htokens : tokens (lonePlace.pattern (nicTokenPrefix ++ name)) =
      .host :: .value (nicTokenPrefix ++ (readValue name).1) :: tokens (readValue name).2 := by
    have hne : (getNextToken (nicTokenPrefix ++ name)).1 ≠ .eof := by
      rw [hnext]
      exact Token.noConfusion
    rw [tokens_lonePlace, tokens_of_ne_eof hne, hnext]
  have hasked := hnone rfl
  rw [init_of_invalid htokens (by rw [createConditionNode_nic]; rfl),
    createConditionNode_nic] at hasked
  have hname : [(readValue name).1] = [name] := (Prod.mk.inj hasked).2
  exact (readValue_eq_self_iff hsolid).mp (singleton_inj.mp hname)

theorem solid_of_not_isTokenDelim (hname : ∀ c ∈ name, isTokenDelim c = false) :
    Solid name := by
  intro c hc
  have hdelim := hname c hc
  simp only [isTokenDelim, isDelim, Bool.or_eq_false_iff] at hdelim ⊢
  exact ⟨⟨hdelim.1.1.2, hdelim.1.2⟩, hdelim.2⟩

/-- **Interface names.** A filter asks for exactly the name, and a pattern if and only if neither
`and` nor `or` ends the name or stands in it before a character that is no letter or digit. -/
theorem nic_name_same_iff (inet : Inet) (name : List Char)
    (hlen : 1 ≤ name.length ∧ name.length ≤ 15) (hname : ∀ c ∈ name, isTokenDelim c = false) :
    FilterAsks inet name ∧ (PatternAsks inet name ↔ Uncut name) := by
  have hsolid := solid_of_not_isTokenDelim hname
  exact ⟨filter_asks hlen hname, uncut_of_patternAsks hsolid, pattern_asks hsolid⟩

/-- The name `eth0` means the same in both. -/
theorem nic_name_same_iff_eth0 :
    FilterAsks .dotted ['e', 't', 'h', '0'] ∧ PatternAsks .dotted ['e', 't', 'h', '0'] := by
  have hname : ∀ c ∈ ['e', 't', 'h', '0'], isTokenDelim c = false := by
    simp only [forall_mem_cons]
    exact ⟨rfl, rfl, rfl, rfl, nofun⟩
  have huncut := (readValue_eq_self_iff (solid_of_not_isTokenDelim hname)).mp rfl
  obtain ⟨hfilter, hpattern⟩ := nic_name_same_iff .dotted ['e', 't', 'h', '0'] (by decide) hname
  exact ⟨hfilter, hpattern.mpr huncut⟩

/-- For the interface `vendor` the filter asks for `vendor` and the pattern for `vend`. -/
theorem pattern_asks_vend :
    (bpfFilterReplaceNic (fun _ => true) .dotted (fun _ => none) "host nic.vendor".toList).2 =
        ["vendor".toList] ∧
      reqPatternCustomMatcherInit .dotted (fun _ => none) "host nic.vendor".toList =
        (none, ["vend".toList]) := by
  have hresolve : (resolveAll .dotted (fun _ => none) (pieces "host nic.vendor".toList)).2 =
      ["vendor".toList] := by decide +kernel
  have htokens : tokens "host nic.vendor".toList =
      [.host, .value (nicTokenPrefix ++ "vend".toList), .or] := by decide +kernel
  constructor
  · rw [(bpfFilterReplaceNic_resolveAll (fun _ => rfl) .dotted (fun _ => none) _).2, hresolve]
  · rw [init_of_invalid htokens (by rw [createConditionNode_nic]; rfl), createConditionNode_nic]

end CloudProbe.Worker
