import CloudProbe.Lib.CString

/-!
# The UUID of a ZeroMQ output

The worker reads the UUID of its configuration into 16 bytes (`uuid_to_bytes`) and sends them with
every batch; the receiving tool writes them as text again (`bytes_to_uuid`). `strtoul` reads a piece
of two characters whole when both are hexadecimal digits, and also when the first is white space or
a plus sign (`strtoul_pair`).

Source: `cpworker/src/output_zmq.c`, `cptools/recvzmq/main.c`.
-/

namespace CloudProbe.Worker

open CloudProbe.Lib

/-! ## The model -/

/-- The loop that copies everything but dashes into `clean`, which has 32 places.
Source: `output_zmq.c` `uuid_to_bytes` -/
def cleanUuid (clean : List UInt8) : List UInt8 → Option (List UInt8)
  | [] => some clean
  | c :: rest =>
    if c ≠ 45 then
      if clean.length ≥ 32 then none else cleanUuid (clean ++ [c]) rest
    else cleanUuid clean rest

/-- The loop over the pieces of two characters.
Source: `output_zmq.c` `uuid_to_bytes` -/
def uuidPieces : List UInt8 → Option (List UInt8)
  | c :: d :: rest =>
    let (val, stop) := strtoul [c, d] 16
    -- `endptr != byte_str + 2`: something is left of the piece.
    if stop ≠ [] ∨ val > 0xFF then none
    else (uuidPieces rest).map (UInt8.ofNat val :: ·)
  | _ => some []

/-- `none` for the result `false`.
Source: `output_zmq.c` `uuid_to_bytes` -/
def uuidToBytes (uuid : CString) : Option (List UInt8) :=
  (cleanUuid [] uuid.bytes).bind fun clean =>
    if clean.length ≠ 32 then none else uuidPieces clean

/-- `"0123456789abcdef"[n]`. -/
def hexChar (n : ℕ) : UInt8 := UInt8.ofNat (if n < 10 then 48 + n else 87 + n)

/-- The characters that `bytes_to_uuid` collects in `hex_chars`.
Source: `recvzmq/main.c` `bytes_to_uuid` -/
def hexChars (uuidBytes : List UInt8) : List UInt8 :=
  uuidBytes.flatMap fun b => [hexChar (b.toNat / 16), hexChar (b.toNat % 16)]

/-- The 37 characters of `uuid`.
Source: `recvzmq/main.c` `bytes_to_uuid` -/
def bytesToUuid (uuidBytes : Vector UInt8 16) : List UInt8 :=
  let hex := hexChars uuidBytes.toList
  hex.take 8 ++ [45] ++ (hex.drop 8).take 4 ++ [45] ++ (hex.drop 12).take 4 ++ [45] ++
    (hex.drop 16).take 4 ++ [45] ++ (hex.drop 20).take 12 ++ [0]

/-! ## The specification -/

def noDashes (s : List UInt8) : List UInt8 := s.filter (· ≠ 45)

def hexVal (c : UInt8) : ℕ := (digitVal c).getD 0

def pairs : List UInt8 → List (UInt8 × UInt8)
  | c :: d :: rest => (c, d) :: pairs rest
  | _ => []

def decodeHex (s : List UInt8) : List UInt8 :=
  (pairs s).map fun p => UInt8.ofNat (16 * hexVal p.1 + hexVal p.2)

/-- Besides dashes the text is 32 hexadecimal digits. -/
def IsHexUuid (s : List UInt8) : Prop :=
  (noDashes s).length = 32 ∧ ∀ c ∈ noDashes s, isDigitOf 16 c = true

instance (s : List UInt8) : Decidable (IsHexUuid s) :=
  inferInstanceAs (Decidable (_ ∧ _))

/-- A character that `strtoul` passes over in front of the digits and that a UUID can have. -/
def isLead (c : UInt8) : Bool := isSpace c || c = 43

/-- A piece of two characters that `strtoul` reads whole. -/
def Readable (p : UInt8 × UInt8) : Prop :=
  (isDigitOf 16 p.1 = true ∨ isLead p.1 = true) ∧ isDigitOf 16 p.2 = true

/-- Besides dashes the text is 32 characters, every piece of two is readable, and one of them is not
two hexadecimal digits. -/
def Lenient (s : List UInt8) : Prop :=
  (noDashes s).length = 32 ∧ (∀ p ∈ pairs (noDashes s), Readable p) ∧
    ∃ p ∈ pairs (noDashes s), isDigitOf 16 p.1 = false

/-! ## What is accepted -/

def pieceVal (p : UInt8 × UInt8) : ℕ :=
  (if isDigitOf 16 p.1 = true then 16 * hexVal p.1 else 0) + hexVal p.2

variable {c d : UInt8} {s : List UInt8}

theorem hexVal_lt (h : isDigitOf 16 c = true) : hexVal c < 16 := by
  rw [isDigitOf] at h
  rw [hexVal]
  cases hval : digitVal c with
  | none => simp
  | some n =>
    rw [hval, Option.any_some, decide_eq_true_eq] at h
    exact h

theorem pieceVal_lt {p : UInt8 × UInt8} (h : Readable p) : pieceVal p < 256 := by
  have h2 := hexVal_lt h.2
  rw [pieceVal]
  by_cases h1 : isDigitOf 16 p.1 = true
  · have := hexVal_lt h1
    rw [if_pos h1]
    omega
  · rw [if_neg h1]
    omega

theorem toUlong_of_lt {n : ℕ} (h : n < 256) : toUlong false n = n := by
  rw [toUlong, if_neg (by rw [ulongMax]; omega), if_neg (by simp)]

/-- A readable piece is a numeral. -/
theorem Readable.numeral (h : Readable (c, d)) :
    Numeral 16 [c, d] (pieceVal (c, d)) := by
  have hmark : ∀ ds, BaseMark 16 16 [] ds := fun ds => .given (by decide)
  rw [← toUlong_of_lt (pieceVal_lt h)]
  obtain ⟨hc, hd⟩ := h
  by_cases hdigit : isDigitOf 16 c = true
  · have hval : pieceVal (c, d) = digitsVal 16 [c, d] := by
      rw [pieceVal, if_pos hdigit]
      simp only [digitsVal, hexVal, List.foldl_cons, List.foldl_nil]
      omega
    rw [hval]
    have hdigits : ∀ e ∈ [c, d], isDigitOf 16 e = true := by
      simp [hdigit, hd]
    exact .mk (fun e he => absurd he List.not_mem_nil) .none (hmark _) (List.cons_ne_nil _ _)
      hdigits
  · have hval : pieceVal (c, d) = digitsVal 16 [d] := by
      rw [pieceVal, if_neg hdigit]
      simp only [digitsVal, hexVal, List.foldl_cons, List.foldl_nil, Nat.zero_mul]
    rw [hval]
    have hdigits : ∀ e ∈ [d], isDigitOf 16 e = true := by
      simp [hd]
    have hlead := hc.resolve_left hdigit
    rw [isLead, Bool.or_eq_true, decide_eq_true_eq] at hlead
    rcases hlead with hspace | rfl
    · have hspaces : ∀ e ∈ [c], isSpace e = true := by
        simp [hspace]
      exact .mk hspaces .none (hmark _) (List.cons_ne_nil _ _) hdigits
    · exact .mk (fun e he => absurd he List.not_mem_nil) .plus (hmark _) (List.cons_ne_nil _ _)
        hdigits

/-- Two characters of which the first is no dash are readable when they are a numeral. -/
theorem readable_of_numeral {v : ℕ} (hc : c ≠ 45) (h : Numeral 16 [c, d] v) :
    Readable (c, d) := by
  generalize ht : [c, d] = t at h
  cases h with
  | @mk space sign mark ds minus b hspace hsign hmark hds hdigits =>
    obtain ⟨e, ds, rfl⟩ := List.exists_cons_of_ne_nil hds
    cases hmark with
    | hex hbase hx =>
      have hlen := congrArg List.length ht
      simp only [List.length_append, List.length_cons, List.length_nil] at hlen
      omega
    | octal hbase h0 | decimal hbase h0 => cases hbase
    | given hbase =>
      rw [List.nil_append] at ht
      -- The last character is a digit, and the first is one, or white space, or the sign.
      cases space with
      | nil =>
        cases hsign with
        | none =>
          obtain ⟨rfl, hds'⟩ := List.cons.inj ht
          exact ⟨.inl (hdigits c (by simp)), hdigits d (by simp [← hds'])⟩
        | plus =>
          obtain ⟨rfl, hds'⟩ := List.cons.inj ht
          obtain ⟨rfl, -⟩ := List.cons.inj hds'
          exact ⟨.inr rfl, hdigits d (by simp)⟩
        | minus =>
          obtain ⟨rfl, -⟩ := List.cons.inj ht
          exact absurd rfl hc
      | cons x space =>
        rw [List.cons_append] at ht
        obtain ⟨rfl, hrest⟩ := List.cons.inj ht
        have hlead : isLead c = true := by
          rw [isLead, hspace c (by simp), Bool.true_or]
        have hlen := congrArg List.length hrest
        simp only [List.length_append, List.length_cons, List.length_nil] at hlen
        obtain rfl : space = [] := List.eq_nil_of_length_eq_zero (by omega)
        obtain rfl : sign = [] := List.eq_nil_of_length_eq_zero (by omega)
        obtain ⟨rfl, -⟩ := List.cons.inj hrest
        exact ⟨.inr hlead, hdigits d (by simp)⟩

/-- **What a piece is read as**: `strtoul` reads one without a dash whole exactly when it is
readable. -/
theorem strtoul_pair (hc : c ≠ 45) :
    (Readable (c, d) ∧ strtoul [c, d] 16 = (pieceVal (c, d), [])) ∨
      (¬ Readable (c, d) ∧ (strtoul [c, d] 16).2 ≠ []) := by
  by_cases hread : Readable (c, d)
  · refine .inl ⟨hread, ?_⟩
    have h := strtoul_append hread.numeral stops_nil
    rwa [List.append_nil] at h
  · refine .inr ⟨hread, fun hnil => hread ?_⟩
    have hpair : strtoul [c, d] 16 = ((strtoul [c, d] 16).1, []) := Prod.ext rfl hnil
    obtain ⟨t, ht, hnum⟩ := numeral_of_strtoul hpair (List.cons_ne_nil _ _).symm
    rw [List.append_nil] at ht
    rw [← ht] at hnum
    exact readable_of_numeral hc hnum

/-- **The loop lemma**: dashes are left out, up to 32 characters. -/
theorem cleanUuid_eq {clean : List UInt8} (hclean : clean.length ≤ 32) (s : List UInt8) :
    cleanUuid clean s =
      if clean.length + (noDashes s).length ≤ 32 then some (clean ++ noDashes s) else none := by
  induction s generalizing clean with
  | nil =>
    rw [cleanUuid, noDashes, List.filter_nil, List.length_nil, if_pos (by omega), List.append_nil]
  | cons c s ih =>
    rw [cleanUuid]
    by_cases hc : c ≠ 45
    · have hfilter : noDashes (c :: s) = c :: noDashes s := by
        rw [noDashes, List.filter_cons, if_pos (by simpa using hc)]
        rfl
      rw [if_pos hc, hfilter, List.length_cons]
      by_cases hfull : clean.length ≥ 32
      · rw [if_pos hfull, if_neg (by omega)]
      · rw [if_neg hfull, ih (by rw [List.length_append, List.length_singleton]; omega)]
        simp only [List.length_append, List.length_singleton, List.append_assoc,
          List.singleton_append]
        congr 1
        rw [eq_iff_iff]
        omega
    · have hfilter : noDashes (c :: s) = noDashes s := by
        rw [noDashes, List.filter_cons, if_neg (by simpa using hc)]
        rfl
      rw [if_neg hc, hfilter, ih hclean]

instance (p : UInt8 × UInt8) : Decidable (Readable p) :=
  inferInstanceAs (Decidable (_ ∧ _))

instance (l : List (UInt8 × UInt8)) : Decidable (∀ p ∈ l, Readable p) :=
  List.decidableBAll Readable l

/-- **The loop lemma**: pieces are read one by one. -/
theorem uuidPieces_eq (hs : 45 ∉ s) :
    uuidPieces s =
      if ∀ p ∈ pairs s, Readable p then some ((pairs s).map fun p => UInt8.ofNat (pieceVal p))
      else none := by
  fun_induction pairs s with
  | case1 c d rest ih =>
    simp only [List.mem_cons, not_or] at hs
    rw [uuidPieces, ih hs.2.2]
    simp only [List.forall_mem_cons]
    rcases strtoul_pair (d := d) (Ne.symm hs.1) with ⟨hread, heq⟩ | ⟨hread, hstop⟩
    · have hlt := pieceVal_lt hread
      rw [heq]
      dsimp only
      rw [if_neg (by simp only [ne_eq, not_true_eq_false, false_or]; omega)]
      simp only [hread, true_and]
      split_ifs with hrest
      · rfl
      · rfl
    · rw [if_pos (.inl hstop), if_neg (fun h => hread h.1)]
  | case2 s hs' =>
    rw [uuidPieces, if_pos (by simp)]
    · rfl
    · exact hs'

/-- **What is accepted** has 32 characters besides dashes, and every piece of two is readable. -/
theorem uuidToBytes_eq (uuid : CString) :
    uuidToBytes uuid =
      if (noDashes uuid.bytes).length = 32 ∧ ∀ p ∈ pairs (noDashes uuid.bytes), Readable p then
        some ((pairs (noDashes uuid.bytes)).map fun p => UInt8.ofNat (pieceVal p))
      else none := by
  have hdash : 45 ∉ noDashes uuid.bytes := by
    simp [noDashes]
  have hempty : ([] : List UInt8).length ≤ 32 := Nat.zero_le 32
  rw [uuidToBytes, cleanUuid_eq hempty, List.length_nil, Nat.zero_add, List.nil_append]
  by_cases hlen : (noDashes uuid.bytes).length = 32
  · rw [if_pos (by omega), Option.bind_some, if_neg (by omega), uuidPieces_eq hdash]
    simp only [hlen, true_and]
  · simp only [hlen, false_and, if_false]
    split_ifs with hle
    · rw [Option.bind_some, if_pos hlen]
    · rw [Option.bind_none]

/-! ## Text and bytes -/

theorem forall_pairs {P : UInt8 → Prop} (hlen : s.length % 2 = 0) :
    (∀ c ∈ s, P c) ↔ ∀ p ∈ pairs s, P p.1 ∧ P p.2 := by
  fun_induction pairs s with
  | case1 c d rest ih =>
    simp only [List.length_cons] at hlen
    simp only [List.forall_mem_cons, ih (by omega), and_assoc]
  | case2 s hs =>
    cases s with
    | nil => simp
    | cons c s =>
      cases s with
      | nil => simp at hlen
      | cons d rest => exact absurd rfl (hs c d rest)

theorem isHexUuid_iff :
    IsHexUuid s ↔ (noDashes s).length = 32 ∧
      ∀ p ∈ pairs (noDashes s), isDigitOf 16 p.1 = true ∧ isDigitOf 16 p.2 = true := by
  rw [IsHexUuid]
  refine and_congr_right fun hlen => ?_
  exact forall_pairs (P := fun c => isDigitOf 16 c = true) (by omega)

theorem map_pieceVal (h : ∀ p ∈ pairs s, isDigitOf 16 p.1 = true) :
    ((pairs s).map fun p => UInt8.ofNat (pieceVal p)) = decodeHex s := by
  rw [decodeHex]
  refine List.map_congr_left fun p hp => ?_
  rw [pieceVal, if_pos (h p hp)]

theorem hexChar_spec : ∀ n < 16,
    isDigitOf 16 (hexChar n) = true ∧ hexVal (hexChar n) = n ∧ hexChar n ≠ 0 ∧ hexChar n ≠ 45 := by
  decide

theorem pairs_hexChars (bs : List UInt8) :
    pairs (hexChars bs) = bs.map fun b => (hexChar (b.toNat / 16), hexChar (b.toNat % 16)) := by
  induction bs with
  | nil => rfl
  | cons b bs ih =>
    rw [hexChars, List.flatMap_cons, List.map_cons, ← ih]
    rfl

theorem mem_hexChars {bs : List UInt8} (h : c ∈ hexChars bs) :
    ∃ n < 16, c = hexChar n := by
  obtain ⟨b, -, hc⟩ := List.mem_flatMap.mp h
  have hb := b.toNat_lt
  simp only [List.mem_cons, List.not_mem_nil, or_false] at hc
  rcases hc with rfl | rfl
  · exact ⟨b.toNat / 16, by omega, rfl⟩
  · exact ⟨b.toNat % 16, by omega, rfl⟩

theorem length_hexChars (bs : List UInt8) : (hexChars bs).length = 2 * bs.length := by
  induction bs with
  | nil => rfl
  | cons b bs ih =>
    rw [hexChars, List.flatMap_cons, List.length_append, ← hexChars, ih]
    simp only [List.length_cons, List.length_nil]
    omega

theorem groups_append {hex : List UInt8} (hlen : hex.length = 32) :
    hex.take 8 ++ ((hex.drop 8).take 4 ++ ((hex.drop 12).take 4 ++ ((hex.drop 16).take 4 ++
      (hex.drop 20).take 12))) = hex := by
  have hgroup : ∀ n k, (hex.drop n).take k ++ hex.drop (n + k) = hex.drop n := by
    intro n k
    rw [← List.drop_drop, List.take_append_drop]
  have hlast : (hex.drop 20).take 12 = hex.drop 20 := by
    apply List.take_of_length_le
    rw [List.length_drop]
    omega
  rw [hlast, hgroup 16 4, hgroup 12 4, hgroup 8 4]
  exact List.take_append_drop 8 hex

/-- The tool writes the 32 digits of the bytes, besides dashes. -/
theorem noDashes_bytesToUuid (b : Vector UInt8 16) :
    noDashes (CString.ofBuffer (bytesToUuid b)).bytes = hexChars b.toList := by
  have hlen : (hexChars b.toList).length = 32 := by
    rw [length_hexChars, Vector.length_toList]
  have hplain : ∀ c ∈ hexChars b.toList, c ≠ 0 ∧ c ≠ 45 := by
    intro c hc
    obtain ⟨n, hn, rfl⟩ := mem_hexChars hc
    exact (hexChar_spec n hn).2.2
  simp only [CString.ofBuffer, bytesToUuid]
  generalize hexChars b.toList = hex at hlen hplain
  have hgroup : ∀ n k, ∀ c ∈ (hex.drop n).take k, c ≠ 0 ∧ c ≠ 45 := fun n k c hc =>
    hplain c (List.mem_of_mem_drop (List.mem_of_mem_take hc))
  have hfirst : ∀ c ∈ hex.take 8, c ≠ 0 ∧ c ≠ 45 := fun c hc => hplain c (List.mem_of_mem_take hc)
  have hnul : ∀ c ∈ hex.take 8 ++ [45] ++ (hex.drop 8).take 4 ++ [45] ++ (hex.drop 12).take 4 ++
      [45] ++ (hex.drop 16).take 4 ++ [45] ++ (hex.drop 20).take 12, decide (c ≠ 0) = true := by
    intro c hc
    simp only [List.mem_append, List.mem_singleton, or_assoc] at hc
    rw [decide_eq_true_eq]
    rcases hc with h | rfl | h | rfl | h | rfl | h | rfl | h
    · exact (hfirst c h).1
    · decide
    · exact (hgroup 8 4 c h).1
    · decide
    · exact (hgroup 12 4 c h).1
    · decide
    · exact (hgroup 16 4 c h).1
    · decide
    · exact (hgroup 20 12 c h).1
  have hkept : ∀ l : List UInt8, (∀ c ∈ l, c ≠ 0 ∧ c ≠ 45) → l.filter (· ≠ 45) = l := by
    intro l hl
    refine List.filter_eq_self.mpr fun c hc => ?_
    simpa using (hl c hc).2
  have hdash : [45].filter (fun c : UInt8 => decide (c ≠ 45)) = [] := by decide
  rw [List.takeWhile_append_of_pos hnul]
  simp only [noDashes, List.filter_append]
  rw [hkept _ hfirst, hkept _ (hgroup 8 4), hkept _ (hgroup 12 4), hkept _ (hgroup 16 4),
    hkept _ (hgroup 20 12), hdash]
  simpa using groups_append hlen

theorem decodeHex_hexChars (bs : List UInt8) : decodeHex (hexChars bs) = bs := by
  rw [decodeHex, pairs_hexChars, List.map_map]
  refine (List.map_congr_left fun b _ => ?_).trans (List.map_id bs)
  have hb := b.toNat_lt
  have hhigh := (hexChar_spec (b.toNat / 16) (by omega)).2.1
  have hlow := (hexChar_spec (b.toNat % 16) (by omega)).2.1
  rw [Function.comp_apply, hhigh, hlow, Nat.div_add_mod, UInt8.ofNat_toNat, id]

/-- **UUID text and bytes.** The worker accepts exactly the texts of 32 hexadecimal digits besides
dashes, unless the text is `Lenient`, and reads back what the tool writes. Source: `output_zmq.c`
`uuid_to_bytes` -/
theorem uuid_text_and_bytes (uuid : CString) (b : Vector UInt8 16) :
    ((uuidToBytes uuid =
        if IsHexUuid uuid.bytes then some (decodeHex (noDashes uuid.bytes)) else none) ↔
      ¬ Lenient uuid.bytes) ∧
    uuidToBytes (CString.ofBuffer (bytesToUuid b)) = some b.toList := by
  constructor
  · rw [uuidToBytes_eq]
    by_cases hread : (noDashes uuid.bytes).length = 32 ∧
        ∀ p ∈ pairs (noDashes uuid.bytes), Readable p
    · rw [if_pos hread]
      by_cases hdigits : ∀ p ∈ pairs (noDashes uuid.bytes), isDigitOf 16 p.1 = true
      · -- Every piece is two digits.
        have hhex : IsHexUuid uuid.bytes :=
          isHexUuid_iff.mpr ⟨hread.1, fun p hp => ⟨hdigits p hp, (hread.2 p hp).2⟩⟩
        rw [if_pos hhex, map_pieceVal hdigits]
        refine iff_of_true rfl ?_
        rintro ⟨-, -, p, hp, hno⟩
        rw [hdigits p hp] at hno
        cases hno
      · -- A piece starts with white space or a plus sign.
        have hhex : ¬ IsHexUuid uuid.bytes := fun h =>
          hdigits fun p hp => ((isHexUuid_iff.mp h).2 p hp).1
        rw [if_neg hhex]
        refine iff_of_false (Option.some_ne_none _) ?_
        simp only [not_forall, Bool.not_eq_true] at hdigits
        obtain ⟨p, hp, hno⟩ := hdigits
        exact fun h => h ⟨hread.1, hread.2, p, hp, hno⟩
    · have hhex : ¬ IsHexUuid uuid.bytes := by
        intro h
        obtain ⟨hlen, hpairs⟩ := isHexUuid_iff.mp h
        exact hread ⟨hlen, fun p hp => ⟨.inl (hpairs p hp).1, (hpairs p hp).2⟩⟩
      rw [if_neg hread, if_neg hhex]
      exact iff_of_true rfl fun h => hread ⟨h.1, h.2.1⟩
  · have hlen : (hexChars b.toList).length = 32 := by
      rw [length_hexChars, Vector.length_toList]
    have hdigits : ∀ c ∈ hexChars b.toList, isDigitOf 16 c = true := by
      intro c hc
      obtain ⟨n, hn, rfl⟩ := mem_hexChars hc
      exact (hexChar_spec n hn).1
    have hpairs : ∀ p ∈ pairs (hexChars b.toList),
        isDigitOf 16 p.1 = true ∧ isDigitOf 16 p.2 = true :=
      (forall_pairs (P := fun c => isDigitOf 16 c = true) (by omega)).mp hdigits
    have hread : ∀ p ∈ pairs (hexChars b.toList), Readable p := fun p hp =>
      ⟨.inl (hpairs p hp).1, (hpairs p hp).2⟩
    rw [uuidToBytes_eq, noDashes_bytesToUuid, if_pos ⟨hlen, hread⟩,
      map_pieceVal fun p hp => (hpairs p hp).1, decodeHex_hexChars]

/-- `+` in front of a digit, sixteen times. -/
def plusUuid : CString := ⟨(List.replicate 16 [43, 49]).flatten, by decide⟩

/-- Thirty-two characters of which half are plus signs are accepted. -/
theorem uuidToBytes_plusUuid :
    uuidToBytes plusUuid = some (List.replicate 16 1) ∧ ¬ IsHexUuid plusUuid.bytes := by
  decide

end CloudProbe.Worker
