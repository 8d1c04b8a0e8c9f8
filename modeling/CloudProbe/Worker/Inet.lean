import CloudProbe.Lib.CString
import CloudProbe.Worker.ReqPattern
import Mathlib.Tactic.Ring

/-!
# Addresses as text

A C string is the list of its characters without the terminator, one `Char` for each byte. `Inet` is
`inet_ntop` and `inet_pton` with what is assumed of them: the latter inverts the former, a textual
IPv6 address is no IPv4 address, and textual addresses consist of hexadecimal digits, dots and
colons. `Inet.dotted` meets the assumptions.
-/

namespace CloudProbe.Worker

open Lib List

/-- `isspace` in the C locale. -/
def isspace (c : Char) : Bool := isSpaceCode c.toNat

def isAddrChar (c : Char) : Bool := c.isDigit || ('a' ≤ c && c ≤ 'f') || c = '.' || c = ':'

/-- `inet_pton` and `inet_ntop` for the two address families.
Source: `arpa/inet.h` -/
structure Inet where
  pton4 : List Char → Option (BitVec 32)
  pton6 : List Char → Option (BitVec 128)
  ntop4 : BitVec 32 → List Char
  ntop6 : BitVec 128 → List Char
  pton4_ntop4 : ∀ addr, pton4 (ntop4 addr) = some addr
  pton6_ntop6 : ∀ addr, pton6 (ntop6 addr) = some addr
  pton4_ntop6 : ∀ addr, pton4 (ntop6 addr) = none
  ntop4_text : ∀ addr, ntop4 addr ≠ [] ∧ (ntop4 addr).all isAddrChar = true
  ntop6_text : ∀ addr, ntop6 addr ≠ [] ∧ (ntop6 addr).all isAddrChar = true

/-- `get_if_ip_addr_fn`: the address of an interface.
Source: `if_util.h` -/
abbrev GetIfIpAddr : Type := List Char → Option IpAddr

/-- What marks the name of an interface.
Source: `bpf_util.c` `NIC_TOKEN_PREFIX`; `req_pattern.c` `create_condition_node` -/
def nicTokenPrefix : List Char := ['n', 'i', 'c', '.']

namespace Inet

/-- The text of an address. The callers' buffers have `INET6_ADDRSTRLEN` bytes, so that there is no
error.
Source: `ip.c` `format_ip_addr` -/
def formatIpAddr (inet : Inet) : IpAddr → List Char
  | .v4 addr => inet.ntop4 addr
  | .v6 addr => inet.ntop6 addr

theorem formatIpAddr_text (inet : Inet) (addr : IpAddr) :
    inet.formatIpAddr addr ≠ [] ∧ ∀ c ∈ inet.formatIpAddr addr, isAddrChar c = true := by
  cases addr with
  | v4 addr => exact ⟨(inet.ntop4_text addr).1, all_eq_true.mp (inet.ntop4_text addr).2⟩
  | v6 addr => exact ⟨(inet.ntop6_text addr).1, all_eq_true.mp (inet.ntop6_text addr).2⟩

theorem all_isAddrChar_toDigits (n : ℕ) : (Nat.toDigits 10 n).all isAddrChar = true := by
  rw [all_eq_true]
  intro c hc
  rw [isAddrChar, Nat.isDigit_of_mem_toDigits (by decide) (by decide) hc]
  rfl

/-! ## Dotted quads -/

/-- The `n` lowest digits of a number, the highest first. -/
def digits (base n value : ℕ) : List ℕ :=
  (List.range n).reverse.map fun i => value / base ^ i % base

def ofDigits (base : ℕ) (ds : List ℕ) : ℕ := ds.foldl (fun acc d => acc * base + d) 0

def joined (sep : Char) (base n : ℕ) (write : ℕ → List Char) (value : ℕ) : List Char :=
  List.intercalate [sep] ((digits base n value).map write)

/-- The address that is written as the text; `read` finds the only candidate. -/
def readBack {w : ℕ} (write : BitVec w → List Char) (read : List Char → ℕ) (text : List Char) :
    Option (BitVec w) :=
  let addr := BitVec.ofNat w (read text)
  if write addr = text then some addr else none

theorem digits_succ (base n value : ℕ) :
    digits base (n + 1) value = value / base ^ n % base :: digits base n value := by
  simp [digits, range_succ]

theorem lt_of_mem_digits {base n value d : ℕ} (hbase : 0 < base) (h : d ∈ digits base n value) :
    d < base := by
  obtain ⟨i, -, rfl⟩ := mem_map.mp h
  exact Nat.mod_lt _ hbase

theorem ofDigits_digits (base n value : ℕ) :
    ofDigits base (digits base n value) = value % base ^ n := by
  have hacc : ∀ acc, (digits base n value).foldl (fun acc d => acc * base + d) acc =
      acc * base ^ n + value % base ^ n := by
    induction n with
    | zero => simp [digits, Nat.mod_one]
    | succ n ih =>
      intro acc
      rw [digits_succ, foldl_cons, ih, Nat.mod_pow_succ, pow_succ]
      ring
  rw [ofDigits, hacc, Nat.zero_mul, Nat.zero_add]

/-- What is read back from the parts between the separators is the number. -/
theorem ofDigits_splitOn_joined {sep : Char} {base n : ℕ} {write : ℕ → List Char}
    {read : List Char → ℕ} (hbase : 0 < base) (hsep : ∀ d < base, sep ∉ write d)
    (hread : ∀ d < base, read (write d) = d) (value : ℕ) :
    ofDigits base (((joined sep base (n + 1) write value).splitOn sep).map read) =
      value % base ^ (n + 1) := by
  have hparts : ∀ part ∈ (digits base (n + 1) value).map write, sep ∉ part := by
    intro part hpart
    obtain ⟨d, hd, rfl⟩ := mem_map.mp hpart
    exact hsep d (lt_of_mem_digits hbase hd)
  have hdigits : ((digits base (n + 1) value).map write).map read = digits base (n + 1) value := by
    rw [map_map]
    exact (map_congr_left fun d hd => hread d (lt_of_mem_digits hbase hd)).trans
      (map_id _)
  have hne : (digits base (n + 1) value).map write ≠ [] := by simp [digits_succ]
  rw [joined, splitOn_intercalate sep hparts hne, hdigits, ofDigits_digits]

theorem joined_add_two (sep : Char) (base n value : ℕ) (write : ℕ → List Char) :
    joined sep base (n + 2) write value =
      write (value / base ^ (n + 1) % base) ++ sep :: joined sep base (n + 1) write value := by
  simp only [joined, digits_succ, map_cons, intercalate_cons_cons, append_assoc, singleton_append]

theorem mem_joined {sep : Char} {base n value : ℕ} {write : ℕ → List Char} (hbase : 0 < base)
    {c : Char} (h : c ∈ joined sep base n write value) : c = sep ∨ ∃ d < base, c ∈ write d := by
  induction n with
  | zero => cases h
  | succ n ih =>
    have hlt : value / base ^ n % base < base := Nat.mod_lt _ hbase
    cases n with
    | zero =>
      rw [joined, digits_succ, map_cons] at h
      exact .inr ⟨_, hlt, by simpa [digits] using h⟩
    | succ n =>
      rw [joined_add_two, mem_append, mem_cons] at h
      obtain h | h | h := h
      · exact .inr ⟨_, hlt, h⟩
      · exact .inl h
      · exact ih h

theorem sep_mem_joined (sep : Char) (base n value : ℕ) (write : ℕ → List Char) :
    sep ∈ joined sep base (n + 2) write value := by
  simp [joined_add_two]

theorem readBack_write {w : ℕ} {write : BitVec w → List Char} {read : List Char → ℕ}
    (h : ∀ addr, read (write addr) = addr.toNat) (addr : BitVec w) :
    readBack write read (write addr) = some addr := by
  simp [readBack, h]

def quad (addr : BitVec 32) : List Char := joined '.' 256 4 (Nat.toDigits 10) addr.toNat

def group (value : ℕ) : List Char := (digits 16 4 value).map Nat.digitChar

def groups (addr : BitVec 128) : List Char := joined ':' 65536 8 group addr.toNat

def hexValue (c : Char) : ℕ := if c.isDigit then c.toNat - 48 else c.toNat - 87

theorem hexDigit : ∀ d < 16, hexValue (Nat.digitChar d) = d ∧ Nat.digitChar d ≠ ':' ∧
    isAddrChar (Nat.digitChar d) = true := by
  decide

theorem isAddrChar_of_mem_group {value : ℕ} {c : Char} (h : c ∈ group value) :
    c ≠ ':' ∧ isAddrChar c = true := by
  obtain ⟨d, hd, rfl⟩ := mem_map.mp h
  exact (hexDigit d (lt_of_mem_digits (by decide) hd)).2

/-- IPv4 addresses as dotted quads, IPv6 addresses in full. -/
def dotted : Inet where
  pton4 := readBack quad fun text =>
    ofDigits 256 ((text.splitOn '.').map fun octet => Nat.ofDigitChars 10 octet 0)
  pton6 := readBack groups fun text =>
    ofDigits 65536 ((text.splitOn ':').map fun group => ofDigits 16 (group.map hexValue))
  ntop4 := quad
  ntop6 := groups
  pton4_ntop4 := by
    apply readBack_write
    intro addr
    rw [quad, ofDigits_splitOn_joined (by decide)]
    · exact Nat.mod_eq_of_lt addr.isLt
    · intro d _ hdot
      exact absurd (Nat.isDigit_of_mem_toDigits (by decide) (by decide) hdot) (by decide)
    · exact fun d _ => Nat.ofDigitChars_toDigits (by decide) (by decide)
  pton6_ntop6 := by
    apply readBack_write
    intro addr
    rw [groups, ofDigits_splitOn_joined (by decide)]
    · exact Nat.mod_eq_of_lt addr.isLt
    · exact fun d _ hcolon => (isAddrChar_of_mem_group hcolon).1 rfl
    · intro d hd
      have hmap : (group d).map hexValue = digits 16 4 d := by
        rw [group, map_map]
        exact (map_congr_left fun e he =>
          (hexDigit e (lt_of_mem_digits (by decide) he)).1).trans (map_id _)
      rw [hmap, ofDigits_digits]
      exact Nat.mod_eq_of_lt hd
  pton4_ntop6 addr := by
    have hcolon : ':' ∈ groups addr := sep_mem_joined _ _ 6 _ _
    have hno : ∀ other, ':' ∉ quad other := by
      intro other h
      obtain h | ⟨d, -, h⟩ := mem_joined (by decide) h
      · cases h
      · exact absurd (Nat.isDigit_of_mem_toDigits (by decide) (by decide) h) (by decide)
    exact if_neg fun heq => hno _ (heq ▸ hcolon)
  ntop4_text addr := by
    refine ⟨ne_nil_of_mem (sep_mem_joined _ _ 2 _ _), all_eq_true.mpr ?_⟩
    intro c hc
    obtain rfl | ⟨d, -, hc⟩ := mem_joined (by decide) hc
    · rfl
    · exact all_eq_true.mp (all_isAddrChar_toDigits d) c hc
  ntop6_text addr := by
    refine ⟨ne_nil_of_mem (sep_mem_joined _ _ 6 _ _), all_eq_true.mpr ?_⟩
    intro c hc
    obtain rfl | ⟨d, -, hc⟩ := mem_joined (by decide) hc
    · rfl
    · exact (isAddrChar_of_mem_group hc).2

end Inet

end CloudProbe.Worker
