import CloudProbe.Daemon.Fingerprint
import CloudProbe.Lib.Delimited
import Mathlib.Data.UInt

/-!
# What the hash is fed

Different texts have different bytes, and the separator is not among them. When no key is written
twice, a map has exactly what was written. So the input of the hash tells apart any two maps without
the separator (`hashInput_inj`). Numbers are written as decimal texts, which differ.
-/

namespace CloudProbe.Daemon

open Lib List

/-! ## Numbers as texts -/

theorem isDigit_of_mem_toString {n : ℕ} {c : Char} (h : c ∈ (toString n).toList) :
    c.isDigit = true := by
  apply Nat.isDigit_of_mem_toDigits (b := 10) (n := n) (by decide) (by decide)
  rw [← Nat.toList_repr]
  exact h

/-- A decimal numeral can be read back. -/
theorem toString_nat_inj {m n : ℕ} (h : toString m = toString n) : m = n := by
  have hdigits : Nat.toDigits 10 m = Nat.toDigits 10 n := by
    rw [← Nat.toList_repr, ← Nat.toList_repr]
    exact congrArg String.toList h
  rw [← Nat.ofDigitChars_toDigits (b := 10) (n := m) (by decide) (by decide), hdigits,
    Nat.ofDigitChars_toDigits (by decide) (by decide)]

theorem toString_negSucc (n : ℕ) :
    (toString (Int.negSucc n)).toList = '-' :: (toString (n + 1)).toList := by
  have htext : toString (Int.negSucc n) = "-" ++ toString (n + 1) := rfl
  rw [htext, String.toList_append]
  rfl

theorem toString_ofNat_ne_negSucc (m n : ℕ) : toString m ≠ toString (Int.negSucc n) := by
  intro h
  have hminus : '-' ∈ (toString m).toList := by
    rw [h, toString_negSucc]
    exact mem_cons_self
  exact absurd (isDigit_of_mem_toString hminus) (by decide)

theorem toString_int_inj (a b : ℤ) (h : toString a = toString b) : a = b := by
  cases a with
  | ofNat m =>
    cases b with
    | ofNat n => exact congrArg Int.ofNat (toString_nat_inj h)
    | negSucc n => exact absurd h (toString_ofNat_ne_negSucc m n)
  | negSucc m =>
    cases b with
    | ofNat n => exact absurd h.symm (toString_ofNat_ne_negSucc n m)
    | negSucc n =>
      have htext := congrArg String.toList h
      rw [toString_negSucc, toString_negSucc] at htext
      have hnat := toString_nat_inj (String.toList_injective (List.cons.inj htext).2)
      rw [Nat.succ.inj hnat]

/-! ## Texts as bytes -/

theorem bytes_from_index (bytes : ByteArray) (i : ℕ) (done : Bytes) :
    ByteArray.toList.loop bytes i done = done.reverse ++ bytes.data.toList.drop i := by
  fun_induction ByteArray.toList.loop bytes i done with
  | case1 i done hlt rest =>
    have hbound : i < bytes.data.toList.length := by simpa using hlt
    have hsplit := drop_eq_getElem_cons hbound
    have hbyte : bytes.get! i = bytes.data.toList[i] := by
      simp [ByteArray.get!, getElem!_pos, hlt]
    rw [rest, hsplit, hbyte, reverse_cons, append_assoc, singleton_append]
  | case2 i done hend =>
    have hnone : bytes.data.toList.drop i = [] := drop_eq_nil_of_le (by simpa using hend)
    rw [hnone, append_nil]

theorem utf8_eq (s : String) : utf8 s = s.toByteArray.data.toList := by
  unfold utf8 ByteArray.toList
  rw [bytes_from_index]
  rfl

theorem utf8_inj {s t : String} (h : utf8 s = utf8 t) : s = t := by
  rw [utf8_eq, utf8_eq] at h
  exact String.toByteArray_inj.mp (ByteArray.ext (Array.toList_inj.mp h))

theorem separatorByte_ne_add {n k : ℕ} (h : n + k < 255) :
    separatorByte ≠ UInt8.ofNat n + UInt8.ofNat k := by
  intro heq
  have hnat := congrArg UInt8.toNat heq
  simp only [separatorByte, UInt8.toNat_add, UInt8.toNat_ofNat'] at hnat
  change 255 = _ at hnat
  omega

/-- No character is encoded with the separator byte. -/
theorem separatorByte_notMem_utf8EncodeChar (c : Char) :
    separatorByte ∉ String.utf8EncodeChar c := by
  fun_cases String.utf8EncodeChar c with
  | case1 v h =>
    have hbyte := separatorByte_ne_add (n := v) (k := 0) (by omega)
    simpa using hbyte
  | case2 v =>
    have hfirst := separatorByte_ne_add (n := v / 64 % 32) (k := 192) (by omega)
    have hlast := separatorByte_ne_add (n := v % 64) (k := 128) (by omega)
    simpa using ⟨hfirst, hlast⟩
  | case3 v =>
    have hfirst := separatorByte_ne_add (n := v / 4096 % 16) (k := 224) (by omega)
    have hsecond := separatorByte_ne_add (n := v / 64 % 64) (k := 128) (by omega)
    have hlast := separatorByte_ne_add (n := v % 64) (k := 128) (by omega)
    simpa using ⟨hfirst, hsecond, hlast⟩
  | case4 v =>
    have hfirst := separatorByte_ne_add (n := v / 262144 % 8) (k := 240) (by omega)
    have hsecond := separatorByte_ne_add (n := v / 4096 % 64) (k := 128) (by omega)
    have hthird := separatorByte_ne_add (n := v / 64 % 64) (k := 128) (by omega)
    have hlast := separatorByte_ne_add (n := v % 64) (k := 128) (by omega)
    simpa using ⟨hfirst, hsecond, hthird, hlast⟩

theorem separatorByte_notMem_utf8 (s : String) : separatorByte ∉ utf8 s := by
  obtain ⟨chars, rfl⟩ : ∃ chars, s = String.ofList chars := ⟨s.toList, by simp⟩
  rw [utf8_eq]
  simp only [String.toByteArray_ofList, List.utf8Encode, data_toByteArray, mem_flatMap,
    not_exists, not_and]
  exact fun c _ => separatorByte_notMem_utf8EncodeChar c

/-! ## Maps from writes -/

def Labels.write (labels : Labels) (w : String × String) : Labels :=
  labels.insert (utf8 w.1) (utf8 w.2)

variable {writes : List (String × String)} {labels : Labels}

theorem lookup_writes_of_notMem (labels : Labels) {key : String} (hkey : key ∉ writes.map Prod.fst)
    :
    (writes.foldl Labels.write labels).lookup (utf8 key) = labels.lookup (utf8 key) := by
  induction writes generalizing labels with
  | nil => rfl
  | cons w writes ih =>
    simp only [map_cons, mem_cons, not_or] at hkey
    obtain ⟨hne, hkey⟩ := hkey
    rw [foldl_cons, ih _ hkey]
    apply Finmap.lookup_insert_of_ne
    exact fun heq => hne (utf8_inj heq)

theorem lookup_writes_of_mem (labels : Labels) (hnodup : (writes.map Prod.fst).Nodup)
    {w : String × String} (hw : w ∈ writes) :
    (writes.foldl Labels.write labels).lookup (utf8 w.1) = some (utf8 w.2) := by
  induction writes generalizing labels with
  | nil => cases hw
  | cons first writes ih =>
    obtain ⟨hnew, hnodup⟩ := nodup_cons.mp hnodup
    rw [foldl_cons]
    rcases mem_cons.mp hw with rfl | hw
    · rw [lookup_writes_of_notMem _ hnew]
      exact Finmap.lookup_insert labels
    · exact ih _ hnodup hw

theorem mem_writes_iff (hnodup : (writes.map Prod.fst).Nodup) (w : String × String) :
    w ∈ writes ↔ (Labels.ofWrites writes).lookup (utf8 w.1) = some (utf8 w.2) := by
  show _ ↔ (writes.foldl Labels.write ∅).lookup (utf8 w.1) = _
  refine ⟨lookup_writes_of_mem ∅ hnodup, fun hlookup => ?_⟩
  by_cases hkey : w.1 ∈ writes.map Prod.fst
  · obtain ⟨w', hw', hfst⟩ := mem_map.mp hkey
    have hlookup' := lookup_writes_of_mem ∅ hnodup hw'
    rw [hfst, hlookup] at hlookup'
    have hsnd : w.2 = w'.2 := utf8_inj (Option.some.inj hlookup')
    rwa [Prod.ext hfst.symm hsnd]
  · rw [lookup_writes_of_notMem ∅ hkey, Finmap.lookup_empty] at hlookup
    cases hlookup

/-! ## The input of the hash -/

def Labels.Unseparated (labels : Labels) : Prop :=
  ∀ key value, labels.lookup key = some value → separatorByte ∉ key ∧ separatorByte ∉ value

theorem Labels.Unseparated.write (h : labels.Unseparated) (w : String × String) :
    (labels.write w).Unseparated := by
  intro key value hlookup
  by_cases hkey : key = utf8 w.1
  · subst hkey
    rw [Labels.write, Finmap.lookup_insert] at hlookup
    obtain rfl := Option.some.inj hlookup
    exact ⟨separatorByte_notMem_utf8 w.1, separatorByte_notMem_utf8 w.2⟩
  · rw [Labels.write, Finmap.lookup_insert_of_ne labels hkey] at hlookup
    exact h key value hlookup

theorem Labels.unseparated_ofWrites (writes : List (String × String)) :
    (Labels.ofWrites writes).Unseparated := by
  have hrun : ∀ labels : Labels, labels.Unseparated →
      (writes.foldl Labels.write labels).Unseparated := by
    induction writes with
    | nil => exact fun labels h => h
    | cons w writes ih => exact fun labels h => ih _ (h.write w)
  apply hrun
  intro key value hlookup
  rw [Finmap.lookup_empty] at hlookup
  cases hlookup

theorem hashInput_eq (labels : Labels) :
    hashInput labels = terminated separatorByte labels.words := by
  simp [hashInput, Labels.words, terminated, labelInput, flatMap_assoc]

theorem Labels.Unseparated.words (h : labels.Unseparated) :
    ∀ w ∈ labels.words, separatorByte ∉ w := by
  intro w hw
  obtain ⟨key, hkey, hw⟩ := mem_flatMap.mp hw
  obtain ⟨value, hvalue⟩ :=
    Finmap.mem_iff.mp (Finmap.mem_keys.mp ((Finset.mem_sort (· ≤ ·)).mp hkey))
  rw [hvalue] at hw
  rcases mem_cons.mp hw with rfl | hw
  · exact (h _ _ hvalue).1
  · obtain rfl := mem_singleton.mp hw
    exact (h _ _ hvalue).2

theorem pairs_inj {α : Type} {f g : α → α} {l l' : List α}
    (h : (l.flatMap fun a => [a, f a]) = l'.flatMap fun a => [a, g a]) :
    l = l' ∧ ∀ a ∈ l, f a = g a := by
  induction l generalizing l' with
  | nil =>
    rcases l' with _ | ⟨b, l'⟩
    · simp
    · simp at h
  | cons a l ih =>
    rcases l' with _ | ⟨b, l'⟩
    · simp at h
    · simp only [flatMap_cons, cons_append, nil_append, List.cons.injEq] at h
      obtain ⟨rfl, hvalue, hrest⟩ := h
      obtain ⟨rfl, hvalues⟩ := ih hrest
      exact ⟨rfl, forall_mem_cons.mpr ⟨hvalue, hvalues⟩⟩

/-- Label maps with the same words are equal. -/
theorem words_inj {labels' : Labels} (h : labels.words = labels'.words) :
    labels = labels' := by
  obtain ⟨hsort, hvalues⟩ := pairs_inj h
  have hkeys : labels.keys = labels'.keys := by
    rw [← Finset.sort_toFinset labels.keys (· ≤ ·), hsort, Finset.sort_toFinset]
  apply Finmap.ext_lookup
  intro key
  by_cases hkey : key ∈ labels.keys
  · obtain ⟨value, hvalue⟩ := Finmap.mem_iff.mp (Finmap.mem_keys.mp hkey)
    obtain ⟨value', hvalue'⟩ := Finmap.mem_iff.mp (Finmap.mem_keys.mp (hkeys ▸ hkey))
    have hsame := hvalues key ((Finset.mem_sort (· ≤ ·)).mpr hkey)
    rw [hvalue, hvalue'] at hsame ⊢
    exact congrArg some hsame
  · have hkey' : key ∉ labels'.keys := hkeys ▸ hkey
    rw [Finmap.lookup_eq_none.mpr fun hmem => hkey (Finmap.mem_keys.mpr hmem),
      Finmap.lookup_eq_none.mpr fun hmem => hkey' (Finmap.mem_keys.mpr hmem)]

/-- **The input of the hash tells maps apart** that do not have the separator. -/
theorem hashInput_inj {labels' : Labels} (h : labels.Unseparated) (h' : labels'.Unseparated)
    (heq : hashInput labels = hashInput labels') : labels = labels' := by
  rw [hashInput_eq, hashInput_eq] at heq
  exact words_inj (terminated_inj h.words h'.words heq)

end CloudProbe.Daemon
