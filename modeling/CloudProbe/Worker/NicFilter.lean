import CloudProbe.Worker.Inet
import Mathlib.Data.List.SplitBy

/-!
# Interface names in a BPF filter

* **The buffer** (`BpfBuf`): the cells of a growing allocation, with room for the terminator and
  terminated as part of the type.
* **The substitution** (`bpfFilterReplaceNic`): the scanning loop over positions with its
  look-behind, the three errors, and the names `get_ip` was asked for.
* **The specification** (`pieces`, `resolve`): the filter cut into its maximal stretches without a
  delimiter and the delimiters one by one; a stretch that starts with `nic.` is replaced.

The invariant of the loop is that it stands between two pieces.

Sources without a file are in `bpf_util.c`.
-/

namespace CloudProbe.Worker

open Option

/-! ## The buffer -/

/-- `bpf_buf_t`: the cells of `data`, `cap` of them; `none` is a cell that was never written.
Source: `bpf_util.c` -/
structure BpfBuf where
  data : List (Option Char)
  len : ℕ
  len_lt : len + 1 ≤ data.length
  terminated : data[len]? = some (some '\x00')

def BpfBuf.cap (buf : BpfBuf) : ℕ := buf.data.length

/-- The loop that doubles the capacity; a capacity is never 0.
Source: `bpf_buf_append` -/
def growCap (need cap : ℕ) (hcap : 0 < cap) : ℕ :=
  if need > cap then growCap need (cap * 2) (Nat.mul_pos hcap Nat.two_pos) else cap
termination_by need - cap

theorem le_growCap (need cap : ℕ) (hcap : 0 < cap) :
    need ≤ growCap need cap hcap ∧ cap ≤ growCap need cap hcap := by
  fun_induction growCap need cap hcap with
  | case1 cap hcap hneed ih | case2 cap hcap hneed => omega

/-- `memcpy` to the end of the text and the terminator behind it.
Source: `bpf_buf_append` -/
def BpfBuf.write (data : List (Option Char)) (len : ℕ) (s : List Char)
    (hroom : len + s.length + 1 ≤ data.length) : BpfBuf where
  data := data.take len ++ s.map some ++ some '\x00' :: data.drop (len + s.length + 1)
  len := len + s.length
  len_lt := by
    simp only [List.length_append, List.length_take, List.length_map, List.length_cons,
      List.length_drop]
    omega
  terminated := by
    rw [List.getElem?_append_right]
    · simp only [List.length_append, List.length_take, List.length_map]
      rw [show len + s.length - (min len data.length + s.length) = 0 by omega]
      rfl
    · simp only [List.length_append, List.length_take, List.length_map]
      omega

def realloc (data : List (Option Char)) (cap : ℕ) : List (Option Char) :=
  data ++ List.replicate (cap - data.length) none

theorem length_realloc {data : List (Option Char)} {cap : ℕ} (h : data.length ≤ cap) :
    (realloc data cap).length = cap := by
  rw [realloc, List.length_append, List.length_replicate]
  omega

section Append

variable (canAlloc : ℕ → Bool)

/-- `none` is the result `false`; `canAlloc` says for which sizes memory can be had.
Source: `bpf_buf_append` -/
def bpfBufAppend (buf : BpfBuf) (s : List Char) : Option BpfBuf :=
  let need := buf.len + s.length + 1
  if h : need > buf.cap then
    let cap := growCap need buf.cap (Nat.lt_of_lt_of_le (Nat.succ_pos buf.len) buf.len_lt)
    if canAlloc cap then
      some (.write (realloc buf.data cap) buf.len s (by
        have hcap := le_growCap need buf.cap
          (Nat.lt_of_lt_of_le (Nat.succ_pos buf.len) buf.len_lt)
        rw [length_realloc hcap.2]
        exact hcap.1))
    else none
  else some (.write buf.data buf.len s (Nat.not_lt.mp h))

def BpfBuf.Holds (buf : BpfBuf) (text : List Char) : Prop :=
  buf.len = text.length ∧ buf.data.take buf.len = text.map some

variable {text : List Char} {buf : BpfBuf}

/-- A text for which there is room is appended. -/
theorem BpfBuf.holds_write {data : List (Option Char)} {len : ℕ} {s : List Char}
    (hroom : len + s.length + 1 ≤ data.length) (hlen : len = text.length)
    (htext : data.take len = text.map some) :
    (BpfBuf.write data len s hroom).Holds (text ++ s) := by
  subst hlen
  refine ⟨(List.length_append ..).symm, ?_⟩
  have hlen : (data.take text.length ++ s.map some).length = text.length + s.length := by
    simp only [List.length_append, List.length_take, List.length_map]
    omega
  calc (data.take text.length ++ s.map some ++
        some '\x00' :: data.drop (text.length + s.length + 1)).take (text.length + s.length)
      = data.take text.length ++ s.map some := by rw [← hlen, List.take_left]
    _ = (text ++ s).map some := by rw [htext, List.map_append]

variable {canAlloc}

theorem bpfBufAppend_eq_write (halloc : ∀ n, canAlloc n = true) (buf : BpfBuf) (s : List Char) :
    ∃ data hroom, bpfBufAppend canAlloc buf s = some (.write data buf.len s hroom) ∧
      data.take buf.len = buf.data.take buf.len := by
  rw [bpfBufAppend]
  dsimp only
  by_cases hneed : buf.len + s.length + 1 > buf.cap
  · rw [dif_pos hneed, if_pos (halloc _)]
    exact ⟨_, _, rfl, List.take_append_of_le_length (Nat.le_of_succ_le buf.len_lt)⟩
  · rw [dif_neg hneed]
    exact ⟨_, _, rfl, rfl⟩

theorem bpfBufAppend_holds (halloc : ∀ n, canAlloc n = true) (htext : buf.Holds text)
    (s : List Char) :
    ∃ out, bpfBufAppend canAlloc buf s = some out ∧ out.Holds (text ++ s) := by
  obtain ⟨data, hroom, happend, hdata⟩ := bpfBufAppend_eq_write halloc buf s
  exact ⟨_, happend, BpfBuf.holds_write hroom htext.1 (hdata.trans htext.2)⟩

theorem bpfBufAppend_ne_none (halloc : ∀ n, canAlloc n = true) (htext : buf.Holds text)
    (s : List Char) : bpfBufAppend canAlloc buf s ≠ none := by
  obtain ⟨out, happend, -⟩ := bpfBufAppend_holds halloc htext s
  rw [happend]
  exact some_ne_none out

theorem bpfBufAppend_some (halloc : ∀ n, canAlloc n = true) {out : BpfBuf} {s : List Char}
    (htext : buf.Holds text) (happend : bpfBufAppend canAlloc buf s = some out) :
    out.Holds (text ++ s) := by
  obtain ⟨out', happend', hout⟩ := bpfBufAppend_holds halloc htext s
  obtain rfl := some.inj (happend.symm.trans happend')
  exact hout

end Append

/-! ## The substitution -/

/-- `IF_NAMESIZE`.
Source: `net/if.h` -/
def ifNamesize : ℕ := 16

/-- Source: `is_token_delim` -/
def isTokenDelim (c : Char) : Bool := c = '\x00' || isspace c || c = '(' || c = ')'

/-- The character at a position; at the end it is the terminator. -/
def charAt (bpf : List Char) (p : ℕ) : Char := bpf.getD p '\x00'

/-- Source: `is_nic_token_start` -/
def isNicTokenStart (bpf : List Char) (p : ℕ) : Bool :=
  nicTokenPrefix.isPrefixOf (bpf.drop p) && (p = 0 || isTokenDelim (charAt bpf (p - 1)))

/-- Source: `bpf_filter_replace_nic` -/
def plainEnd (bpf : List Char) (inPtr : ℕ) : ℕ :=
  if inPtr < bpf.length ∧ ¬ isNicTokenStart bpf inPtr then plainEnd bpf (inPtr + 1) else inPtr
termination_by bpf.length - inPtr

theorem lt_length_of_not_isTokenDelim {bpf : List Char} {p : ℕ}
    (h : ¬ isTokenDelim (charAt bpf p) = true) : p < bpf.length := by
  by_contra hp
  apply h
  rw [charAt, List.getD_eq_getElem?_getD, List.getElem?_eq_none (Nat.not_lt.mp hp)]
  rfl

/-- Source: `bpf_filter_replace_nic` -/
def nameEnd (bpf : List Char) (p : ℕ) : ℕ :=
  if h : isTokenDelim (charAt bpf p) then p
  else
    have := lt_length_of_not_isTokenDelim h
    nameEnd bpf (p + 1)
termination_by bpf.length - p

theorem le_plainEnd (bpf : List Char) (p : ℕ) : p ≤ plainEnd bpf p := by
  fun_induction plainEnd bpf p with
  | case1 p hplain ih | case2 p hplain => omega

theorem le_nameEnd (bpf : List Char) (p : ℕ) : p ≤ nameEnd bpf p := by
  fun_induction nameEnd bpf p with
  | case1 p hdelim | case2 p hdelim hlt ih => omega

section Replace

variable (canAlloc : ℕ → Bool) (inet : Inet) (getIp : GetIfIpAddr) (bpf : List Char)

/-- The outer loop, with the names `get_ip` was asked for so far. An error is its text.
Source: `bpf_filter_replace_nic` -/
def replaceNicLoop (inPtr : ℕ) (out : BpfBuf) (asked : List (List Char)) :
    Except String BpfBuf × List (List Char) :=
  if inPtr < bpf.length then
    let token := plainEnd bpf inPtr
    match bpfBufAppend canAlloc out ((bpf.drop inPtr).take (token - inPtr)) with
    | none => (.error "bpf_filter: out of memory", asked)
    | some out =>
      if token < bpf.length then
        let name := token + nicTokenPrefix.length
        let nameStop := nameEnd bpf name
        let ifname := (bpf.drop name).take (nameStop - name)
        if ifname.length = 0 ∨ ifNamesize ≤ ifname.length then
          (.error ("invalid interface name in bpf_filter: " ++
            String.ofList ((bpf.drop token).take (nameStop - token))), asked)
        else
          match getIp ifname with
          | none =>
            (.error ("no ip found for interface " ++ String.ofList ifname), asked ++ [ifname])
          | some addr =>
            match bpfBufAppend canAlloc out (inet.formatIpAddr addr) with
            | none => (.error "bpf_filter: out of memory", asked ++ [ifname])
            | some out => replaceNicLoop nameStop out (asked ++ [ifname])
      else (.ok out, asked)
  else (.ok out, asked)
termination_by bpf.length - inPtr
decreasing_by
  have hplain := le_plainEnd bpf inPtr
  have hname := le_nameEnd bpf (plainEnd bpf inPtr + nicTokenPrefix.length)
  have hstarts : nicTokenPrefix.length = 4 := rfl
  omega

/-- The buffer that holds nothing but its terminator.
Source: `bpf_filter_replace_nic` -/
def emptyBuf : BpfBuf where
  data := some '\x00' :: List.replicate bpf.length none
  len := 0
  len_lt := Nat.succ_le_succ (Nat.zero_le _)
  terminated := rfl

/-- The filter with its interfaces replaced, an error being `NULL` with the text in `errbuf`, and
the names `get_ip` was asked for.
Source: `bpf_filter_replace_nic` -/
def bpfFilterReplaceNic : Except String BpfBuf × List (List Char) :=
  if canAlloc (bpf.length + 1) then replaceNicLoop canAlloc inet getIp bpf 0 (emptyBuf bpf) []
  else (.error "bpf_filter: out of memory", [])

end Replace

/-! ## The specification -/

/-- The pieces of a filter: its maximal stretches without a delimiter, and its delimiters one by
one. -/
def pieces (bpf : List Char) : List (List Char) :=
  bpf.splitBy fun a b => !isTokenDelim a && !isTokenDelim b

/-- What the pieces are: nothing is lost, a piece is one character or has no delimiter in it, and
two stretches without a delimiter are never neighbours. -/
structure Pieces (bpf : List Char) (ps : List (List Char)) : Prop where
  flatten : ps.flatten = bpf
  whole : ∀ piece ∈ ps, piece.length = 1 ∨ ∀ c ∈ piece, isTokenDelim c = false
  maximal : ps.IsChain fun l m => ∃ (hl : l ≠ []) (hm : m ≠ []),
    (!isTokenDelim (l.getLast hl) && !isTokenDelim (m.head hm)) = false

theorem not_isTokenDelim_nic : ∀ c ∈ nicTokenPrefix, isTokenDelim c = false := by
  simp only [nicTokenPrefix, List.forall_mem_cons]
  exact ⟨rfl, rfl, rfl, rfl, nofun⟩

theorem not_isTokenDelim_of_isChain {c d : Char} {piece : List Char}
    (h : (c :: d :: piece).IsChain fun a b => (!isTokenDelim a && !isTokenDelim b) = true) :
    ∀ e ∈ c :: d :: piece, isTokenDelim e = false := by
  induction piece generalizing c d with
  | nil =>
    rw [List.isChain_pair] at h
    simpa using h
  | cons e piece ih =>
    rw [List.isChain_cons_cons] at h
    rw [List.forall_mem_cons]
    refine ⟨?_, ih h.2⟩
    have hc := (Bool.and_eq_true _ _ ▸ h.1).1
    simpa using hc

theorem pieces_spec (bpf : List Char) : Pieces bpf (pieces bpf) := by
  refine ⟨List.flatten_splitBy _ _, ?_,
    List.isChain_getLast_head_splitBy (fun a b => !isTokenDelim a && !isTokenDelim b) bpf⟩
  intro piece hmem
  have hchain := List.isChain_of_mem_splitBy hmem
  have hne := List.ne_nil_of_mem_splitBy hmem
  cases piece with
  | nil => exact absurd rfl hne
  | cons c piece =>
    cases piece with
    | nil => exact .inl rfl
    | cons d piece => exact .inr (not_isTokenDelim_of_isChain hchain)

theorem pieces_of_not_isTokenDelim {text : List Char} (hne : text ≠ [])
    (h : ∀ c ∈ text, isTokenDelim c = false) : pieces text = [text] := by
  apply List.splitBy_of_isChain hne
  apply List.Pairwise.isChain
  apply List.pairwise_of_forall_mem_list
  intro c hc d hd
  rw [h c hc, h d hd]
  rfl

theorem pieces_append {l m : List Char}
    (h : ∀ c ∈ l.getLast?, ∀ d ∈ m.head?, isTokenDelim c = true ∨ isTokenDelim d = true) :
    pieces (l ++ m) = pieces l ++ pieces m := by
  apply List.splitBy_append
  intro c hc d hd
  obtain hdelim | hdelim := h c hc d hd
  all_goals simp [hdelim]

section Spec

variable (inet : Inet) (getIp : GetIfIpAddr)

/-- What stands for a piece in the result, if anything can. -/
def resolve (piece : List Char) : Option (List Char) :=
  if nicTokenPrefix.isPrefixOf piece then
    let name := piece.drop nicTokenPrefix.length
    if name.length = 0 ∨ ifNamesize ≤ name.length then none
    else (getIp name).map inet.formatIpAddr
  else some piece

/-- The pieces from left to right, with the names `get_ip` is asked for up to the first piece that
cannot be replaced. -/
def resolveAll : List (List Char) → Option (List Char) × List (List Char)
  | [] => (some [], [])
  | piece :: rest =>
    if nicTokenPrefix.isPrefixOf piece then
      let name := piece.drop nicTokenPrefix.length
      if name.length = 0 ∨ ifNamesize ≤ name.length then (none, [])
      else
        match getIp name with
        | none => (none, [name])
        | some addr =>
          ((resolveAll rest).1.map (inet.formatIpAddr addr ++ ·), name :: (resolveAll rest).2)
    else ((resolveAll rest).1.map (piece ++ ·), (resolveAll rest).2)

variable {inet getIp}

theorem resolveAll_append_plain {plain rest : List (List Char)}
    (hplain : ∀ piece ∈ plain, ¬ nicTokenPrefix.isPrefixOf piece = true) :
    resolveAll inet getIp (plain ++ rest) =
      ((resolveAll inet getIp rest).1.map (plain.flatten ++ ·),
        (resolveAll inet getIp rest).2) := by
  induction plain with
  | nil => simp
  | cons piece plain ih =>
    rw [List.forall_mem_cons] at hplain
    rw [List.cons_append, resolveAll, if_neg hplain.1, ih hplain.2, map_map, List.flatten_cons]
    simp only [Function.comp_def, List.append_assoc]

section Token

variable {name : List Char} {rest : List (List Char)}

theorem resolveAll_of_length (hlen : name.length = 0 ∨ ifNamesize ≤ name.length) :
    resolveAll inet getIp ((nicTokenPrefix ++ name) :: rest) = (none, []) := by
  rw [resolveAll, if_pos (List.isPrefixOf_iff_prefix.mpr (List.prefix_append _ _))]
  dsimp only
  rw [List.drop_left, if_pos hlen]

theorem resolveAll_of_none (hlen : ¬ (name.length = 0 ∨ ifNamesize ≤ name.length))
    (hip : getIp name = none) :
    resolveAll inet getIp ((nicTokenPrefix ++ name) :: rest) = (none, [name]) := by
  rw [resolveAll, if_pos (List.isPrefixOf_iff_prefix.mpr (List.prefix_append _ _))]
  dsimp only
  rw [List.drop_left, if_neg hlen, hip]

theorem resolveAll_of_some (hlen : ¬ (name.length = 0 ∨ ifNamesize ≤ name.length)) {addr : IpAddr}
    (hip : getIp name = some addr) :
    resolveAll inet getIp ((nicTokenPrefix ++ name) :: rest) =
      ((resolveAll inet getIp rest).1.map (inet.formatIpAddr addr ++ ·),
        name :: (resolveAll inet getIp rest).2) := by
  rw [resolveAll, if_pos (List.isPrefixOf_iff_prefix.mpr (List.prefix_append _ _))]
  dsimp only
  rw [List.drop_left, if_neg hlen, hip]

end Token

theorem map_append_flatten (t : List Char) (ts : Option (List (List Char))) :
    (ts.map List.flatten).map (t ++ ·) = (ts.bind fun ts => some (t :: ts)).map List.flatten := by
  cases ts with
  | none | some ts => rfl

theorem resolveAll_fst (ps : List (List Char)) :
    (resolveAll inet getIp ps).1 = (ps.mapM (resolve inet getIp)).map List.flatten := by
  induction ps with
  | nil => rfl
  | cons piece ps ih =>
    rw [resolveAll, List.mapM_cons, resolve]
    dsimp only
    split_ifs with hnic hlen
    · rfl
    · cases getIp (piece.drop nicTokenPrefix.length) with
      | none => rfl
      | some addr =>
        dsimp only
        rw [ih]
        exact map_append_flatten _ _
    · dsimp only
      rw [ih]
      exact map_append_flatten _ _

end Spec

/-! ## Scanning -/

section Scan

variable {bpf : List Char}

variable {p : ℕ}

theorem plainEnd_spec (hp : p ≤ bpf.length) :
    plainEnd bpf p ≤ bpf.length ∧
      (plainEnd bpf p < bpf.length → isNicTokenStart bpf (plainEnd bpf p) = true) ∧
      ∀ i, p ≤ i → i < plainEnd bpf p → ¬ isNicTokenStart bpf i = true := by
  fun_induction plainEnd bpf p with
  | case1 p hplain ih =>
    obtain ⟨hle, hstart, hpassed⟩ := ih hplain.1
    refine ⟨hle, hstart, ?_⟩
    intro i hpi hi
    obtain rfl | hlt := Nat.eq_or_lt_of_le hpi
    · exact hplain.2
    · exact hpassed i hlt hi
  | case2 p hplain =>
    refine ⟨hp, ?_, ?_⟩
    · intro hlt
      by_contra hstart
      exact hplain ⟨hlt, hstart⟩
    · intro i hpi hi
      omega

theorem nameEnd_spec (bpf : List Char) (p : ℕ) :
    isTokenDelim (charAt bpf (nameEnd bpf p)) = true ∧
      ∀ i, p ≤ i → i < nameEnd bpf p → ¬ isTokenDelim (charAt bpf i) = true := by
  fun_induction nameEnd bpf p with
  | case1 p hdelim =>
    refine ⟨hdelim, ?_⟩
    intro i hpi hi
    omega
  | case2 p hdelim hlt ih =>
    refine ⟨ih.1, ?_⟩
    intro i hpi hi
    obtain rfl | hlt := Nat.eq_or_lt_of_le hpi
    · exact hdelim
    · exact ih.2 i hlt hi

def Boundary (bpf : List Char) (p : ℕ) : Prop :=
  p = 0 ∨ isTokenDelim (charAt bpf (p - 1)) = true ∨ isTokenDelim (charAt bpf p) = true

theorem charAt_drop (bpf : List Char) (p k : ℕ) : charAt (bpf.drop p) k = charAt bpf (p + k) := by
  rw [charAt, charAt, List.getD_eq_getElem?_getD, List.getD_eq_getElem?_getD, List.getElem?_drop]

theorem charAt_of_getElem? {c : Char} (h : bpf[p]? = some c) : charAt bpf p = c := by
  rw [charAt, List.getD_eq_getElem?_getD, h]
  rfl

/-- What is before such a piece ends with a delimiter. -/
theorem exists_append_of_nic_piece {text piece : List Char} (hmem : piece ∈ pieces text)
    (hnic : nicTokenPrefix.isPrefixOf piece = true) :
    ∃ before after, text = before ++ (piece ++ after) ∧
      ∀ c ∈ before.getLast?, isTokenDelim c = true := by
  obtain ⟨left, right, hpieces⟩ := List.append_of_mem hmem
  have htext : text = left.flatten ++ (piece ++ right.flatten) := by
    rw [← List.flatten_cons, ← List.flatten_append, ← hpieces, pieces, List.flatten_splitBy]
  refine ⟨left.flatten, right.flatten, htext, ?_⟩
  intro c hc
  obtain rfl | ⟨left, last, rfl⟩ := List.eq_nil_or_concat left
  · cases hc
  have hchain := List.isChain_getLast_head_splitBy
    (fun a b => !isTokenDelim a && !isTokenDelim b) text
  rw [← pieces, hpieces, List.isChain_append] at hchain
  obtain ⟨hlast, hhead, hcut⟩ := hchain.2.2 last (by simp) piece (by simp)
  have hc' : c = last.getLast hlast := by
    rw [List.concat_eq_append, List.flatten_concat, List.getLast?_append_of_ne_nil _ hlast,
      List.getLast?_eq_some_getLast hlast] at hc
    exact (some.inj hc).symm
  obtain ⟨rest, rfl⟩ := List.isPrefixOf_iff_prefix.mp hnic
  rw [hc']
  simpa [nicTokenPrefix, show isTokenDelim 'n' = false from rfl] using hcut

/-- The loop finds every piece that starts with `nic.`. -/
theorem isNicTokenStart_of_piece (hbound : Boundary bpf p) {before piece rest : List Char}
    (hnic : nicTokenPrefix.isPrefixOf piece = true)
    (hdelim : ∀ c ∈ before.getLast?, isTokenDelim c = true)
    (htext : bpf.drop p = before ++ (piece ++ rest)) :
    isNicTokenStart bpf (p + before.length) = true := by
  have hdrop : bpf.drop (p + before.length) = piece ++ rest := by
    rw [← List.drop_drop, htext, List.drop_left]
  have hstarts := (List.isPrefixOf_iff_prefix.mp hnic).trans (List.prefix_append piece rest)
  rw [isNicTokenStart, hdrop, List.isPrefixOf_iff_prefix.mpr hstarts, Bool.true_and,
    Bool.or_eq_true]
  obtain rfl | ⟨before, last, rfl⟩ := List.eq_nil_or_concat before
  · obtain hzero | hbehind | hahead := hbound
    · exact .inl (decide_eq_true hzero)
    · exact .inr hbehind
    · obtain ⟨tail, htail⟩ := hstarts
      have hn : charAt bpf p = 'n' := by
        rw [← Nat.add_zero p, ← charAt_drop]
        exact (congrArg (charAt · 0) (hdrop.trans htail.symm)).trans rfl
      rw [hn] at hahead
      exact absurd hahead (by decide)
  · right
    have hlast : bpf[p + before.length]? = some last := by
      rw [← List.getElem?_drop, htext]
      simp
    have hplace : p + (before.concat last).length - 1 = p + before.length := by
      rw [List.length_concat]
      omega
    rw [hplace, charAt_of_getElem? hlast]
    exact hdelim last (by simp)

/-- Pieces are cut in front of a token. -/
theorem pieces_cut_of_start {q : ℕ} (hstart : q < bpf.length → isNicTokenStart bpf q = true) :
    pieces ((bpf.drop p).take (q - p) ++ bpf.drop q) =
      pieces ((bpf.drop p).take (q - p)) ++ pieces (bpf.drop q) := by
  apply pieces_append
  intro c hc d hd
  have hlt : q < bpf.length := by
    by_contra hend
    rw [List.drop_eq_nil_of_le (Nat.not_lt.mp hend)] at hd
    cases hd
  have hne : p < q := by
    by_contra hne
    rw [Nat.sub_eq_zero_of_le (Nat.not_lt.mp hne), List.take_zero] at hc
    cases hc
  have hlast : bpf[q - 1]? = some c := by
    rw [mem_def, List.getLast?_eq_getElem?, List.length_take_of_le
      (by rw [List.length_drop]; omega), List.getElem?_take_of_lt (by omega),
      List.getElem?_drop] at hc
    rw [← hc]
    congr 1
    omega
  have hdelim := (Bool.and_eq_true _ _ ▸ hstart hlt).2
  rw [charAt_of_getElem? hlast, decide_eq_false (by omega), Bool.false_or] at hdelim
  exact .inl hdelim

/-- No piece between two tokens starts with `nic.`. -/
theorem pieces_plain (hp : p ≤ bpf.length) (hbound : Boundary bpf p) :
    pieces (bpf.drop p) =
        pieces ((bpf.drop p).take (plainEnd bpf p - p)) ++ pieces (bpf.drop (plainEnd bpf p)) ∧
      ∀ piece ∈ pieces ((bpf.drop p).take (plainEnd bpf p - p)),
        ¬ nicTokenPrefix.isPrefixOf piece = true := by
  obtain ⟨hle, hstart, hpassed⟩ := plainEnd_spec hp
  have hfrom := le_plainEnd bpf p
  generalize plainEnd bpf p = q at hle hstart hpassed hfrom ⊢
  have hcut : bpf.drop p = (bpf.drop p).take (q - p) ++ bpf.drop q := by
    rw [show bpf.drop q = (bpf.drop p).drop (q - p) by rw [List.drop_drop]; congr 1; omega,
      List.take_append_drop]
  constructor
  · exact (congrArg pieces hcut).trans (pieces_cut_of_start hstart)
  · intro piece hmem hnic
    obtain ⟨before, after, htext, hdelim⟩ := exists_append_of_nic_piece hmem hnic
    -- The piece would start a token at a place that the scan passed.
    have hdrop : bpf.drop p = before ++ (piece ++ (after ++ bpf.drop q)) := by
      rw [hcut, htext]
      simp only [List.append_assoc]
    have hlt : p + before.length < q := by
      have hlen := congrArg List.length htext
      have hpiece : 4 ≤ piece.length := (List.isPrefixOf_iff_prefix.mp hnic).length_le
      simp only [List.length_take, List.length_drop, List.length_append] at hlen
      omega
    exact hpassed (p + before.length) (Nat.le_add_right _ _) hlt
      (isNicTokenStart_of_piece hbound hnic hdelim hdrop)

/-- A piece that starts with `nic.` ends where the loop ends the name. -/
theorem pieces_token (hstart : isNicTokenStart bpf p = true) :
    pieces (bpf.drop p) =
        (nicTokenPrefix ++ (bpf.drop (p + nicTokenPrefix.length)).take
          (nameEnd bpf (p + nicTokenPrefix.length) - (p + nicTokenPrefix.length))) ::
          pieces (bpf.drop (nameEnd bpf (p + nicTokenPrefix.length))) ∧
      nameEnd bpf (p + nicTokenPrefix.length) ≤ bpf.length ∧
      Boundary bpf (nameEnd bpf (p + nicTokenPrefix.length)) := by
  rw [isNicTokenStart, Bool.and_eq_true] at hstart
  obtain ⟨rest, hrest⟩ := List.isPrefixOf_iff_prefix.mp hstart.1
  have hname : bpf.drop (p + nicTokenPrefix.length) = rest := by
    rw [← List.drop_drop, ← hrest, List.drop_left]
  have hfrom := le_nameEnd bpf (p + nicTokenPrefix.length)
  obtain ⟨hdelim, hpassed⟩ := nameEnd_spec bpf (p + nicTokenPrefix.length)
  generalize nameEnd bpf (p + nicTokenPrefix.length) = e at hfrom hdelim hpassed ⊢
  have hroom : p + nicTokenPrefix.length ≤ bpf.length := by
    have hlen := congrArg List.length hrest
    rw [List.length_append, List.length_drop] at hlen
    have hstarts : nicTokenPrefix.length = 4 := rfl
    omega
  have hend : e ≤ bpf.length := by
    by_contra hlt
    have hpast := lt_length_of_not_isTokenDelim (hpassed bpf.length hroom (by omega))
    omega
  have hcut : rest = rest.take (e - (p + nicTokenPrefix.length)) ++ bpf.drop e := by
    rw [show bpf.drop e = rest.drop (e - (p + nicTokenPrefix.length)) by
      rw [← hname, List.drop_drop]; congr 1; omega, List.take_append_drop]
  refine ⟨?_, hend, .inr (.inr hdelim)⟩
  rw [hname]
  generalize hchars : rest.take (e - (p + nicTokenPrefix.length)) = ifname at hcut ⊢
  have hplain : ∀ c ∈ nicTokenPrefix ++ ifname, isTokenDelim c = false := by
    intro c hc
    obtain hc | hc := List.mem_append.mp hc
    · exact not_isTokenDelim_nic c hc
    · obtain ⟨k, hk⟩ := List.mem_iff_getElem?.mp hc
      have hlt : k < e - (p + nicTokenPrefix.length) := by
        by_contra hge
        rw [← hchars, List.getElem?_take_eq_none (Nat.not_lt.mp hge)] at hk
        cases hk
      rw [← hchars, List.getElem?_take_of_lt hlt, ← hname, List.getElem?_drop] at hk
      rw [← charAt_of_getElem? hk, ← Bool.not_eq_true]
      exact hpassed _ (Nat.le_add_right _ _) (by omega)
  have htoken : pieces (nicTokenPrefix ++ ifname) = [nicTokenPrefix ++ ifname] :=
    pieces_of_not_isTokenDelim (List.cons_ne_nil _ _) hplain
  rw [← hrest, hcut, ← List.append_assoc, pieces_append, htoken, List.singleton_append]
  intro c _ d hd
  rw [mem_def, List.head?_eq_getElem?, List.getElem?_drop] at hd
  rw [← charAt_of_getElem? hd]
  exact .inr hdelim

end Scan

/-! ## Correctness -/

/-- A run that ends with the text in the buffer, or in an error when there is none. -/
def Yields (result : Except String BpfBuf) : Option (List Char) → Prop
  | some text => ∃ out, result = .ok out ∧ out.Holds text
  | none => ∃ message, result = .error message

section Correct

variable {canAlloc : ℕ → Bool} {inet : Inet} {getIp : GetIfIpAddr} {bpf : List Char}

theorem resolveAll_plain {p : ℕ} (hp : p ≤ bpf.length) (hbound : Boundary bpf p) :
    resolveAll inet getIp (pieces (bpf.drop p)) =
      ((resolveAll inet getIp (pieces (bpf.drop (plainEnd bpf p)))).1.map
          ((bpf.drop p).take (plainEnd bpf p - p) ++ ·),
        (resolveAll inet getIp (pieces (bpf.drop (plainEnd bpf p)))).2) := by
  obtain ⟨hcut, hplain⟩ := pieces_plain hp hbound
  have hflatten : (pieces ((bpf.drop p).take (plainEnd bpf p - p))).flatten =
      (bpf.drop p).take (plainEnd bpf p - p) := List.flatten_splitBy _ _
  rw [hcut, resolveAll_append_plain hplain, hflatten]

/-- **The loop lemma**: from a boundary on, the pieces are replaced one by one. -/
theorem replaceNicLoop_correct (halloc : ∀ n, canAlloc n = true) {p : ℕ} {out : BpfBuf}
    {asked : List (List Char)} {text : List Char} (hp : p ≤ bpf.length) (hbound : Boundary bpf p)
    (hout : out.Holds text) :
    Yields (replaceNicLoop canAlloc inet getIp bpf p out asked).1
        ((resolveAll inet getIp (pieces (bpf.drop p))).1.map (text ++ ·)) ∧
      (replaceNicLoop canAlloc inet getIp bpf p out asked).2 =
        asked ++ (resolveAll inet getIp (pieces (bpf.drop p))).2 := by
  fun_induction replaceNicLoop canAlloc inet getIp bpf p out asked generalizing text with
  | case1 p out asked hlt token =>
    rename_i happend
    exact absurd happend (bpfBufAppend_ne_none halloc hout _)
  | case2 p out asked hlt token out' happend htoken name nameStop ifname =>
    rename_i hlen
    obtain ⟨hpieces, -⟩ := pieces_token ((plainEnd_spec hp).2.1 htoken)
    rw [resolveAll_plain hp hbound, hpieces, resolveAll_of_length hlen]
    exact ⟨⟨_, rfl⟩, (List.append_nil asked).symm⟩
  | case3 p out asked hlt token out' happend htoken name nameStop ifname hlen =>
    rename_i hip
    obtain ⟨hpieces, -⟩ := pieces_token ((plainEnd_spec hp).2.1 htoken)
    rw [resolveAll_plain hp hbound, hpieces, resolveAll_of_none hlen hip]
    exact ⟨⟨_, rfl⟩, rfl⟩
  | case4 p out asked hlt token out' happend htoken name nameStop ifname hlen addr hip =>
    rename_i happend'
    exact absurd happend' (bpfBufAppend_ne_none halloc (bpfBufAppend_some halloc hout happend) _)
  | case5 p out asked hlt token out' happend htoken name nameStop ifname hlen addr hip out''
      happend' =>
      rename_i ih
      obtain ⟨hpieces, hend, hbound'⟩ := pieces_token ((plainEnd_spec hp).2.1 htoken)
      have hout' := bpfBufAppend_some halloc (bpfBufAppend_some halloc hout happend) happend'
      obtain ⟨hyields, hasked⟩ := ih hend hbound' hout'
      rw [resolveAll_plain hp hbound, hpieces, resolveAll_of_some hlen hip]
      constructor
      · rw [map_map, map_map]
        simp only [Function.comp_def, ← List.append_assoc]
        exact hyields
      · rw [hasked, List.append_assoc]
        rfl
  | case6 p out asked hlt token out' happend =>
    rename_i htoken
    rw [resolveAll_plain hp hbound, List.drop_eq_nil_of_le (Nat.not_lt.mp htoken)]
    refine ⟨⟨out', rfl, ?_⟩, (List.append_nil asked).symm⟩
    simpa using bpfBufAppend_some halloc hout happend
  | case7 p out asked hlt =>
    rw [List.drop_eq_nil_of_le (Nat.not_lt.mp hlt)]
    exact ⟨⟨out, rfl, by simpa using hout⟩, (List.append_nil asked).symm⟩

theorem mapM_resolve_eq_none_iff (ps : List (List Char)) :
    ps.mapM (resolve inet getIp) = none ↔ ∃ piece ∈ ps, resolve inet getIp piece = none := by
  induction ps with
  | nil => simp
  | cons piece ps ih =>
    rw [List.mapM_cons, List.exists_mem_cons_iff, ← ih]
    cases resolve inet getIp piece with
    | none => simp
    | some text =>
      cases ps.mapM (resolve inet getIp) with
      | none | some texts => simp

/-- When a piece cannot be replaced. -/
theorem resolve_eq_none_iff (inet : Inet) (getIp : GetIfIpAddr) (piece : List Char) :
    resolve inet getIp piece = none ↔
      nicTokenPrefix.isPrefixOf piece = true ∧
        ((piece.drop nicTokenPrefix.length).length = 0 ∨
          ifNamesize ≤ (piece.drop nicTokenPrefix.length).length ∨
          getIp (piece.drop nicTokenPrefix.length) = none) := by
  rw [resolve]
  dsimp only
  split_ifs with hnic hlen
  · exact ⟨fun _ => ⟨hnic, by omega⟩, fun _ => rfl⟩
  · rw [map_eq_none_iff]
    constructor
    · intro hip
      exact ⟨hnic, .inr (.inr hip)⟩
    · rintro ⟨-, hzero | hlong | hip⟩
      · exact absurd (.inl hzero) hlen
      · exact absurd (.inr hlong) hlen
      · exact hip
  · constructor
    · nofun
    · intro h
      exact absurd h.1 hnic

theorem bpfFilterReplaceNic_resolveAll (halloc : ∀ n, canAlloc n = true) (inet : Inet)
    (getIp : GetIfIpAddr) (bpf : List Char) :
    Yields (bpfFilterReplaceNic canAlloc inet getIp bpf).1 (resolveAll inet getIp (pieces bpf)).1 ∧
      (bpfFilterReplaceNic canAlloc inet getIp bpf).2 = (resolveAll inet getIp (pieces bpf)).2 := by
  have hempty : (emptyBuf bpf).Holds [] := ⟨rfl, rfl⟩
  rw [bpfFilterReplaceNic, if_pos (halloc _)]
  obtain ⟨hyields, hasked⟩ :=
    @replaceNicLoop_correct canAlloc inet getIp bpf halloc 0 _ [] _ (Nat.zero_le _) (.inl rfl)
      hempty
  exact ⟨by simpa using hyields, by simpa using hasked⟩

/-- **NIC substitution.** The result is the filter with every piece that starts with `nic.` replaced
by the address of the rest of it; there is none exactly when such a piece has no valid name or an
interface without an address. -/
theorem nic_substitution_correct (halloc : ∀ n, canAlloc n = true) (inet : Inet)
    (getIp : GetIfIpAddr) (bpf : List Char) :
    Pieces bpf (pieces bpf) ∧
      Yields (bpfFilterReplaceNic canAlloc inet getIp bpf).1
        (((pieces bpf).mapM (resolve inet getIp)).map List.flatten) ∧
      ((∃ message, (bpfFilterReplaceNic canAlloc inet getIp bpf).1 = .error message) ↔
        ∃ piece ∈ pieces bpf, nicTokenPrefix.isPrefixOf piece = true ∧
          ((piece.drop nicTokenPrefix.length).length = 0 ∨
            ifNamesize ≤ (piece.drop nicTokenPrefix.length).length ∨
            getIp (piece.drop nicTokenPrefix.length) = none)) ∧
      ∀ buf s, ∃ out, bpfBufAppend canAlloc buf s = some out ∧ out.len = buf.len + s.length ∧
        out.len + 1 ≤ out.cap ∧ out.data[out.len]? = some (some '\x00') := by
  obtain ⟨hyields, -⟩ := bpfFilterReplaceNic_resolveAll halloc inet getIp bpf
  rw [resolveAll_fst] at hyields
  refine ⟨pieces_spec bpf, hyields, ?_, ?_⟩
  · simp only [← resolve_eq_none_iff inet, ← mapM_resolve_eq_none_iff]
    cases hresolve : (pieces bpf).mapM (resolve inet getIp) with
    | none =>
      rw [hresolve] at hyields
      exact ⟨fun _ => rfl, fun _ => hyields⟩
    | some texts =>
      rw [hresolve] at hyields
      obtain ⟨out, hout, -⟩ := hyields
      rw [hout]
      constructor
      · rintro ⟨message, hmessage⟩
        cases hmessage
      · nofun
  · intro buf s
    obtain ⟨data, hroom, happend, -⟩ := bpfBufAppend_eq_write halloc buf s
    exact ⟨_, happend, rfl, BpfBuf.len_lt _, BpfBuf.terminated _⟩

end Correct

/-- The interface `eth0` has the address 10.0.0.7. -/
def eth0Addr : GetIfIpAddr := fun name =>
  if name = ['e', 't', 'h', '0'] then some (.v4 0x0a000007#32) else none

/-- In `host nic.eth0 and tcp` the interface is replaced by 10.0.0.7. -/
theorem nic_substitution_correct_eth0 :
    Yields (bpfFilterReplaceNic (fun _ => true) .dotted eth0Addr "host nic.eth0 and tcp".toList).1
      (some "host 10.0.0.7 and tcp".toList) := by
  have hpieces : ((pieces "host nic.eth0 and tcp".toList).mapM (resolve .dotted eth0Addr)).map
      List.flatten = some "host 10.0.0.7 and tcp".toList := by decide +kernel
  rw [← hpieces]
  exact (nic_substitution_correct (fun _ => rfl) .dotted eth0Addr
    "host nic.eth0 and tcp".toList).2.1

end CloudProbe.Worker
