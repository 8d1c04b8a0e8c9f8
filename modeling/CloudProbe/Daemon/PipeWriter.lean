import CloudProbe.Lib.Delimited
import Mathlib.Data.List.Infix

/-!
# The worker's output as log lines

`pipeWriter` gets the output of the worker in pieces and gives it on line by line. What is left of a
line waits in the slice `rem`. How far a slice grows when `append` needs room is not said by the
language; it is a parameter (`Growth`).

* **The writer** (`write`): `addToRem` cuts a line at the capacity of the slice, or at 1024 bytes if
  that is more.
* **What lines should come out** (`cleanLines`): the ended lines of the stream, without one carriage
  return at their end, not empty, cut to 1024 bytes.
* **What waits** (`Pending w r`): an unfinished line of at most 1024 bytes. Beyond that it depends
  on the pieces and on the capacity.

Source: `cpdaemon/pkg/worker/log.go`.
-/

namespace CloudProbe.Daemon

open CloudProbe.Lib List

/-! ## The writer -/

def lineFeed : UInt8 := 10

def carriageReturn : UInt8 := 13

def maxLineLength : ℕ := 1024

/-- How `append` grows a slice: the new capacity for an old one and a length that exceeds it. -/
structure Growth where
  newCap : ℕ → ℕ → ℕ
  le_newCap : ∀ c n, n ≤ newCap c n

/-- The slice `rem` with its capacity, and the lines that were given on.
Source: `log.go` `pipeWriter` -/
@[ext]
structure PipeWriter where
  rem : List UInt8
  cap : ℕ
  out : List (List UInt8)
  len_le_cap : rem.length ≤ cap

namespace PipeWriter

/-- Source: `log.go` `newPipeWriter` -/
def new : PipeWriter := ⟨[], 256, [], by decide⟩

def truncate (w : PipeWriter) (n : ℕ) : PipeWriter where
  rem := w.rem.take n
  cap := w.cap
  out := w.out
  len_le_cap := (length_take_le' n w.rem).trans w.len_le_cap

@[simp] theorem truncate_rem (w : PipeWriter) (n : ℕ) : (w.truncate n).rem = w.rem.take n := rfl

def append (g : Growth) (w : PipeWriter) (p : List UInt8) : PipeWriter where
  rem := w.rem ++ p
  cap :=
    if (w.rem ++ p).length ≤ w.cap then w.cap else g.newCap w.cap (w.rem ++ p).length
  out := w.out
  len_le_cap := by
    split_ifs with h
    · exact h
    · exact g.le_newCap _ _

/-- Source: `log.go` `addToRem` -/
def addToRem (g : Growth) (w : PipeWriter) (p : List UInt8) : PipeWriter :=
  let maxLen := max w.cap maxLineLength
  let room := maxLen - w.rem.length
  if room = 0 then w
  else w.append g (if room < p.length then p.take room else p)

/-- A round of the loop of `Write` that finds a newline, up to the output; `p` is what is in front
of the newline.
Source: `log.go` `Write` -/
def finishRem (g : Growth) (w : PipeWriter) (p : List UInt8) : PipeWriter :=
  if p = [] ∧ w.rem.getLast? = some carriageReturn then
    (w.truncate (w.rem.length - 1)).addToRem g p
  else if p.getLast? = some carriageReturn then w.addToRem g p.dropLast
  else w.addToRem g p

/-- Source: `log.go` `Write` -/
def endLine (g : Growth) (w : PipeWriter) (p : List UInt8) : PipeWriter :=
  let w := w.finishRem g p
  if w.rem ≠ [] then { w.truncate 0 with out := w.out ++ [w.rem] } else w

/-- Source: `log.go` `Write` -/
def writeLoop (g : Growth) (w : PipeWriter) (p : List UInt8) : PipeWriter :=
  if lineFeed ∈ p then
    writeLoop g (w.endLine g (p.take (p.idxOf lineFeed))) (p.drop (p.idxOf lineFeed + 1))
  else w.addToRem g p
termination_by p.length
decreasing_by
  have := idxOf_lt_length_of_mem ‹lineFeed ∈ p›
  rw [length_drop]
  omega

/-- The writer, the number of bytes and the error it returns.
Source: `log.go` `Write` -/
def write (g : Growth) (w : PipeWriter) (p : List UInt8) : PipeWriter × ℕ × Option String :=
  (w.writeLoop g p, p.length, none)

def writes (g : Growth) (chunks : List (List UInt8)) : PipeWriter :=
  chunks.foldl (fun w p => (w.write g p).1) new

end PipeWriter

/-! ## The specification -/

/-- A line without one carriage return at its end. -/
def stripCr (raw : List UInt8) : List UInt8 :=
  if raw.getLast? = some carriageReturn then raw.dropLast else raw

/-- The lines that should be given on for lines of the stream. -/
def cleanLines (lines : List (List UInt8)) : List (List UInt8) :=
  ((lines.map stripCr).filter (· ≠ [])).map (List.take maxLineLength)

/-- A line for which neither the pieces nor the capacity matter. -/
def Fits (raw : List UInt8) : Prop :=
  raw.length ≤ maxLineLength ∨
    raw.length = maxLineLength + 1 ∧ raw.getLast? = some carriageReturn ∧
      raw[maxLineLength - 1]? ≠ some carriageReturn

namespace PipeWriter

/-! ## What waits -/

variable {g : Growth} {w : PipeWriter}

theorem addToRem_rem (g : Growth) (w : PipeWriter) (p : List UInt8) :
    (w.addToRem g p).rem = w.rem ++ p.take (max w.cap maxLineLength - w.rem.length) := by
  rw [addToRem]
  by_cases hroom : max w.cap maxLineLength - w.rem.length = 0
  · rw [if_pos hroom, hroom, take_zero, append_nil]
  · rw [if_neg hroom]
    split_ifs with hcut
    · rfl
    · rw [take_of_length_le (Nat.le_of_not_lt hcut)]
      rfl

theorem addToRem_out (g : Growth) (w : PipeWriter) (p : List UInt8) :
    (w.addToRem g p).out = w.out := by
  rw [addToRem]
  by_cases hroom : max w.cap maxLineLength - w.rem.length = 0
  · rw [if_pos hroom]
  · rw [if_neg hroom]
    rfl

/-- The unfinished line is `r`: as long as it is not longer than a line may be, `rem` is the line,
and with one byte more at most this byte is missing. -/
structure Pending (w : PipeWriter) (r : List UInt8) : Prop where
  open_line : lineFeed ∉ r
  short : r.length ≤ maxLineLength → w.rem = r
  one_more : r.length = maxLineLength + 1 → w.rem = r ∨ w.rem = r.take maxLineLength

theorem pending_nil (h : w.rem = []) : w.Pending [] where
  open_line := not_mem_nil
  short := fun _ => h
  one_more := nofun

variable {p r raw : List UInt8} {before : List (List UInt8)}

/-- A piece without a newline waits with the others. -/
theorem Pending.add (h : w.Pending r) (hp : lineFeed ∉ p) (g : Growth) :
    (w.addToRem g p).Pending (r ++ p) where
  open_line := by simp [h.open_line, hp]
  short := by
    intro hlen
    rw [length_append] at hlen
    have hrem := h.short (by omega)
    rw [addToRem_rem, hrem, take_of_length_le (by omega)]
  one_more := by
    intro hlen
    rw [length_append] at hlen
    rw [addToRem_rem]
    by_cases hnil : p = []
    · subst hnil
      rw [take_nil, append_nil, append_nil]
      exact h.one_more (by simpa using hlen)
    · have hpos : 0 < p.length := length_pos_of_ne_nil hnil
      have hrem := h.short (by omega)
      rw [hrem]
      by_cases hroom : maxLineLength < w.cap
      · left
        rw [take_of_length_le (by omega)]
      · right
        rw [take_append, take_of_length_le (by omega : r.length ≤ maxLineLength),
          Nat.max_eq_right (Nat.le_of_not_lt hroom)]

theorem finishRem_out (g : Growth) (w : PipeWriter) (p : List UInt8) :
    (w.finishRem g p).out = w.out := by
  rw [finishRem]
  by_cases hcr : p = [] ∧ w.rem.getLast? = some carriageReturn
  · rw [if_pos hcr, addToRem_out]
    rfl
  · rw [if_neg hcr]
    split_ifs with hlast
    · rw [addToRem_out]
    · rw [addToRem_out]

/-- **The end of a line that fits.** What waits then is the line without its carriage return. -/
theorem Pending.finish (h : w.Pending r) (hp : lineFeed ∉ p) (hfits : Fits (r ++ p)) (g : Growth) :
    (w.finishRem g p).rem = stripCr (r ++ p) := by
  rw [finishRem]
  by_cases hnil : p = []
  · -- The newline is the first byte of its piece.
    subst hnil
    rw [append_nil] at hfits ⊢
    have hrem : ∀ w : PipeWriter, (w.addToRem g []).rem = w.rem := by
      intro w
      rw [addToRem_rem, take_nil, append_nil]
    have hdrop : ∀ l : List UInt8, l.take (l.length - 1) = l.dropLast := fun l =>
      dropLast_eq_take.symm
    rcases hfits with hlen | ⟨hlen, hlast, hcut⟩
    · rw [h.short hlen, stripCr]
      by_cases hcr : r.getLast? = some carriageReturn
      · rw [if_pos ⟨rfl, hcr⟩, if_pos hcr, hrem, truncate_rem, h.short hlen, hdrop]
      · rw [if_neg (fun hc => hcr hc.2), if_neg (by simp), if_neg hcr, hrem, h.short hlen]
    · rw [stripCr, if_pos hlast]
      rcases h.one_more hlen with hall | hpart
      · rw [hall, if_pos ⟨rfl, hlast⟩, hrem, truncate_rem, hall, hdrop]
      · have hkept : w.rem.getLast? ≠ some carriageReturn := by
          have hget : (r.take maxLineLength)[maxLineLength - 1]? = r[maxLineLength - 1]? :=
            List.getElem?_take_of_lt (by decide)
          rw [hpart, List.getLast?_eq_getElem?, length_take_of_le (by omega), hget]
          exact hcut
        rw [if_neg (fun hc => hkept hc.2), if_neg (by simp), hrem, hpart, ← hdrop, hlen,
          Nat.add_sub_cancel]
  · rw [if_neg (fun hc => hnil hc.1)]
    have hlast : (r ++ p).getLast? = p.getLast? := List.getLast?_append_of_ne_nil r hnil
    by_cases hcr : p.getLast? = some carriageReturn
    · have hdrop : (r ++ p).dropLast = r ++ p.dropLast := dropLast_append_of_ne_nil hnil
      have hlen : (r ++ p.dropLast).length ≤ maxLineLength := by
        rw [← hdrop, length_dropLast]
        rcases hfits with hlen | ⟨hlen, -⟩ <;> omega
      have hopen : lineFeed ∉ p.dropLast := fun hmem => hp (mem_of_mem_dropLast hmem)
      rw [if_pos hcr, (h.add hopen g).short hlen, stripCr, hlast, if_pos hcr, hdrop]
    · have hlen : (r ++ p).length ≤ maxLineLength := by
        rcases hfits with hlen | ⟨-, hno, -⟩
        · exact hlen
        · exact absurd (hlast.symm.trans hno) hcr
      rw [if_neg hcr, (h.add hp g).short hlen, stripCr, hlast, if_neg hcr]

/-! ## Lines that fit -/

theorem cleanLines_append (l l' : List (List UInt8)) :
    cleanLines (l ++ l') = cleanLines l ++ cleanLines l' := by
  simp [cleanLines]

theorem length_stripCr_le (h : Fits raw) :
    (stripCr raw).length ≤ maxLineLength := by
  rw [stripCr]
  split_ifs with hcr
  · rw [length_dropLast]
    rcases h with hlen | ⟨hlen, -⟩ <;> omega
  · rcases h with hlen | ⟨-, hno, -⟩
    · exact hlen
    · exact absurd hno hcr

/-- A newline gives the line on as it should be. -/
theorem Pending.endLine (h : w.Pending r) (hp : lineFeed ∉ p) (hfits : Fits (r ++ p)) (g : Growth) :
    (w.endLine g p).out = w.out ++ cleanLines [r ++ p] ∧ (w.endLine g p).rem = [] := by
  have hrem := h.finish hp hfits g
  have hclean : cleanLines [r ++ p] =
      if stripCr (r ++ p) ≠ [] then [stripCr (r ++ p)] else [] := by
    split_ifs with hne
    · simp [cleanLines, hne, take_of_length_le (length_stripCr_le hfits)]
    · simp [cleanLines, not_not.mp hne]
  rw [PipeWriter.endLine]
  dsimp only
  rw [hrem, hclean]
  split_ifs with hne
  · exact ⟨by rw [finishRem_out], rfl⟩
  · rw [finishRem_out, append_nil, hrem]
    exact ⟨rfl, not_not.mp hne⟩

theorem writeLoop_line (g : Growth) (w : PipeWriter) {q : List UInt8} (hq : lineFeed ∉ q)
    (rest : List UInt8) :
    w.writeLoop g (q ++ lineFeed :: rest) = (w.endLine g q).writeLoop g rest := by
  have hidx : (q ++ lineFeed :: rest).idxOf lineFeed = q.length := by
    rw [idxOf_append_of_notMem hq, idxOf_cons_self, Nat.add_zero]
  have hdrop : (q ++ lineFeed :: rest).drop (q.length + 1) = rest := by
    rw [← drop_drop, drop_left]
    rfl
  rw [writeLoop, if_pos (by simp), hidx, take_left, hdrop]

theorem writeLoop_open (g : Growth) (w : PipeWriter) (hp : lineFeed ∉ p) :
    w.writeLoop g p = w.addToRem g p := by
  rw [writeLoop, if_neg hp]

/-- **A piece** whose lines fit, the unfinished one with what waited for it. -/
theorem Pending.writeLoop (h : w.Pending r) (g : Growth)
    (hfits : ∀ raw ∈ (segments lineFeed (r ++ p)).1, Fits raw) :
    (w.writeLoop g p).out = w.out ++ cleanLines (segments lineFeed (r ++ p)).1 ∧
      (w.writeLoop g p).Pending (segments lineFeed (r ++ p)).2 := by
  obtain ⟨heq, hwords, hrest⟩ := segments_spec lineFeed p
  rw [heq] at hfits ⊢
  generalize (segments lineFeed p).1 = words at hwords hfits
  generalize (segments lineFeed p).2 = rest at hrest hfits
  induction words generalizing w r with
  | nil =>
    have hopen : lineFeed ∉ r ++ rest := by simp [h.open_line, hrest]
    rw [terminated_nil, nil_append, segments_of_notMem hopen, writeLoop_open g w hrest,
      addToRem_out]
    exact ⟨by simp [cleanLines], h.add hrest g⟩
  | cons q words ih =>
    simp only [forall_mem_cons] at hwords
    have hopen : lineFeed ∉ r ++ q := by simp [h.open_line, hwords.1]
    have hcons : r ++ (terminated lineFeed (q :: words) ++ rest) =
        (r ++ q) ++ lineFeed :: (terminated lineFeed words ++ rest) := by
      simp [append_assoc]
    rw [hcons, segments_word hopen] at hfits ⊢
    simp only [forall_mem_cons] at hfits
    obtain ⟨hout, hrem⟩ := h.endLine hwords.1 hfits.1 g
    obtain ⟨hout', hpending⟩ := ih (pending_nil hrem) hwords.2 hfits.2
    rw [terminated_cons, append_assoc, cons_append, writeLoop_line g w hwords.1]
    refine ⟨?_, hpending⟩
    rw [hout', hout, append_assoc, ← cleanLines_append, singleton_append, nil_append]

/-- **All the pieces.** When the lines of the stream fit, they are given on as they should be. -/
theorem Pending.foldl (h : w.Pending r) (g : Growth) (chunks : List (List UInt8))
    (hfits : ∀ raw ∈ (segments lineFeed (r ++ chunks.flatten)).1, Fits raw) :
    (chunks.foldl (fun w p => (w.write g p).1) w).out =
        w.out ++ cleanLines (segments lineFeed (r ++ chunks.flatten)).1 ∧
      (chunks.foldl (fun w p => (w.write g p).1) w).Pending
        (segments lineFeed (r ++ chunks.flatten)).2 := by
  induction chunks generalizing w r with
  | nil =>
    rw [flatten_nil, append_nil, segments_of_notMem h.open_line]
    exact ⟨by simp [cleanLines], h⟩
  | cons p chunks ih =>
    rw [flatten_cons, ← append_assoc, segments_append] at hfits ⊢
    simp only [forall_mem_append] at hfits
    obtain ⟨hout, hpending⟩ := h.writeLoop g hfits.1
    obtain ⟨hout', hpending'⟩ := ih hpending hfits.2
    refine ⟨?_, hpending'⟩
    rw [cleanLines_append, ← append_assoc, ← hout]
    exact hout'

theorem writes_of_fits (g : Growth) (chunks : List (List UInt8))
    (hfits : ∀ raw ∈ (segments lineFeed chunks.flatten).1, Fits raw) :
    (writes g chunks).out = cleanLines (segments lineFeed chunks.flatten).1 ∧
      (writes g chunks).Pending (segments lineFeed chunks.flatten).2 :=
  (pending_nil rfl).foldl g chunks hfits

/-- Whole lines that fit are given on as they should be. -/
theorem writes_terminated (g : Growth) {lines : List (List UInt8)}
    (h : ∀ raw ∈ lines, Fits raw ∧ lineFeed ∉ raw) :
    (writes g [terminated lineFeed lines]).out = cleanLines lines ∧
      (writes g [terminated lineFeed lines]).rem = [] := by
  have hseg : segments lineFeed ([terminated lineFeed lines].flatten) = (lines, []) := by
    have hwords := segments_terminated_append (fun raw hraw => (h raw hraw).2) []
    simpa [segments] using hwords
  have hfits : ∀ raw ∈ (segments lineFeed [terminated lineFeed lines].flatten).1, Fits raw := by
    rw [hseg]
    exact fun raw hraw => (h raw hraw).1
  obtain ⟨hout, hpending⟩ := writes_of_fits g [terminated lineFeed lines] hfits
  rw [hseg] at hout hpending
  exact ⟨hout, hpending.short (Nat.zero_le _)⟩

/-! ## Lines that do not fit -/

theorem writeLoop_out (g : Growth) (w : PipeWriter) (p : List UInt8) :
    ∃ more, (w.writeLoop g p).out = w.out ++ more := by
  fun_induction writeLoop g w p with
  | case1 w p hmem ih =>
    obtain ⟨more, hmore⟩ := ih
    have hend : ∃ line, (w.endLine g (p.take (p.idxOf lineFeed))).out = w.out ++ line := by
      rw [PipeWriter.endLine]
      dsimp only
      split_ifs with hne
      · exact ⟨_, by rw [finishRem_out]⟩
      · exact ⟨[], by rw [finishRem_out, append_nil]⟩
    obtain ⟨line, hline⟩ := hend
    exact ⟨line ++ more, by rw [hmore, hline, append_assoc]⟩
  | case2 w p hmem => exact ⟨[], by rw [addToRem_out, append_nil]⟩

/-- A slice grows to its limit at most. -/
theorem addToRem_cap (g : Growth) (w : PipeWriter) (p : List UInt8) :
    (w.addToRem g p).cap = w.cap ∨
      ∃ n, w.cap < n ∧ n ≤ max w.cap maxLineLength ∧ (w.addToRem g p).cap = g.newCap w.cap n := by
  have hrem := addToRem_rem g w p
  rw [addToRem] at hrem ⊢
  by_cases hroom : max w.cap maxLineLength - w.rem.length = 0
  · rw [if_pos hroom]
    exact .inl rfl
  rw [if_neg hroom] at hrem ⊢
  generalize (if max w.cap maxLineLength - w.rem.length < p.length
    then p.take (max w.cap maxLineLength - w.rem.length) else p) = q at hrem ⊢
  by_cases hfit : (w.rem ++ q).length ≤ w.cap
  · exact .inl (if_pos hfit)
  · refine .inr ⟨(w.rem ++ q).length, Nat.lt_of_not_ge hfit, ?_, if_neg hfit⟩
    have hlen := congrArg List.length hrem
    rw [append, length_append, length_append, length_take] at hlen
    have hcap := w.len_le_cap
    rw [length_append]
    omega

/-- What every growth of the slice keeps holds of its capacity. -/
theorem writeLoop_cap {P : ℕ → Prop}
    (hP : ∀ c n, P c → c < n → n ≤ max c maxLineLength → P (g.newCap c n)) (h : P w.cap)
    (p : List UInt8) : P (w.writeLoop g p).cap := by
  have hadd : ∀ (w : PipeWriter) p, P w.cap → P (w.addToRem g p).cap := by
    intro w p hw
    obtain heq | ⟨n, hlt, hle, heq⟩ := addToRem_cap g w p
    · rw [heq]
      exact hw
    · rw [heq]
      exact hP _ _ hw hlt hle
  have hfinish : ∀ (w : PipeWriter) p, P w.cap → P (w.finishRem g p).cap := by
    intro w p hw
    rw [finishRem]
    split_ifs <;> exact hadd _ _ hw
  fun_induction writeLoop g w p with
  | case1 w p hmem ih =>
    apply ih
    rw [PipeWriter.endLine]
    dsimp only
    split_ifs <;> exact hfinish w _ h
  | case2 w p hmem => exact hadd w p h

/-- **A line cut in two pieces** differs when what waits at its end is not what it should be. -/
theorem writes_ne {a b : List UInt8} (after : List (List UInt8)) (tail : List UInt8)
    (hbefore : ∀ raw ∈ before, Fits raw ∧ lineFeed ∉ raw) (ha : lineFeed ∉ a) (hb : lineFeed ∉ b)
    {w : PipeWriter} (hw : w = writes g [terminated lineFeed before])
    (hne : ((w.addToRem g a).finishRem g b).rem ≠ []) (hstrip : stripCr (a ++ b) ≠ [])
    (hdiff : ((w.addToRem g a).finishRem g b).rem ≠ (stripCr (a ++ b)).take maxLineLength) :
    (writes g [terminated lineFeed before, a, b ++ lineFeed :: tail]).out ≠
      cleanLines (before ++ (a ++ b) :: after) := by
  obtain ⟨hout, -⟩ := writes_terminated g hbefore
  rw [← hw] at hout
  have hrun : writes g [terminated lineFeed before, a, b ++ lineFeed :: tail] =
      ((w.addToRem g a).endLine g b).writeLoop g tail := by
    have h : writes g [terminated lineFeed before, a, b ++ lineFeed :: tail] =
        (w.writeLoop g a).writeLoop g (b ++ lineFeed :: tail) := by
      rw [hw]
      rfl
    rw [h, writeLoop_open g w ha, writeLoop_line g _ hb]
  have hend : ((w.addToRem g a).endLine g b).out =
      cleanLines before ++ [((w.addToRem g a).finishRem g b).rem] := by
    rw [PipeWriter.endLine]
    dsimp only
    rw [if_pos hne, finishRem_out, addToRem_out, hout]
  have hclean : cleanLines (before ++ (a ++ b) :: after) =
      cleanLines before ++ (stripCr (a ++ b)).take maxLineLength :: cleanLines after := by
    rw [cleanLines_append]
    simp [cleanLines, hstrip]
  obtain ⟨more, hmore⟩ := writeLoop_out g ((w.addToRem g a).endLine g b) tail
  rw [hrun, hmore, hend, hclean, append_assoc, singleton_append]
  intro heq
  exact hdiff (List.cons.inj (append_cancel_left heq)).1

def farGrowth : Growth := ⟨fun _ n => n + 1025, fun _ _ => Nat.le_add_right _ _⟩

def exactGrowth : Growth := ⟨fun _ n => n, fun _ _ => le_refl _⟩

theorem not_fits_cases (h : ¬ Fits raw) :
    maxLineLength < (stripCr raw).length ∨
      raw.length = maxLineLength + 1 ∧ raw.getLast? = some carriageReturn ∧
        raw[maxLineLength - 1]? = some carriageReturn := by
  rw [Fits, not_or] at h
  obtain ⟨hlen, hone⟩ := h
  rw [stripCr]
  split_ifs with hcr
  · rw [length_dropLast]
    by_cases hcut : raw.length = maxLineLength + 1
    · exact .inr ⟨hcut, hcr, by_contra fun hno => hone ⟨hcut, hcr, hno⟩⟩
    · left
      omega
  · left
    omega

theorem finishRem_of_ne_nil (g : Growth) (w : PipeWriter) {a b : List UInt8} (hrem : w.rem = a)
    (hb : b ≠ []) :
    (w.finishRem g b).rem =
      (stripCr (a ++ b)).take (max w.cap maxLineLength) := by
  have hlast : (a ++ b).getLast? = b.getLast? := List.getLast?_append_of_ne_nil a hb
  have hcap : a.length ≤ max w.cap maxLineLength := by
    have := w.len_le_cap
    rw [hrem] at this
    omega
  rw [finishRem, if_neg (fun hc => hb hc.1), stripCr, hlast]
  by_cases hcr : b.getLast? = some carriageReturn
  · rw [if_pos hcr, if_pos hcr, addToRem_rem, hrem, dropLast_append_of_ne_nil hb,
      take_append, take_of_length_le hcap]
  · rw [if_neg hcr, if_neg hcr, addToRem_rem, hrem, take_append, take_of_length_le hcap]

theorem length_stripCr (raw : List UInt8) : (stripCr raw).length ≤ raw.length := by
  rw [stripCr]
  split_ifs with hcr
  · rw [length_dropLast]
    omega
  · rfl

/-- A line that is too long, cut behind its 257th byte, differs when slices grow far. -/
theorem writes_long (after : List (List UInt8)) (tail : List UInt8)
    (hbefore : ∀ raw ∈ before, Fits raw ∧ lineFeed ∉ raw) (hraw : lineFeed ∉ raw)
    (hlong : maxLineLength < (stripCr raw).length) :
    (writes farGrowth [terminated lineFeed before, raw.take 257,
        raw.drop 257 ++ lineFeed :: tail]).out ≠
      cleanLines (before ++ raw :: after) := by
  generalize hw : writes farGrowth [terminated lineFeed before] = w
  have hrem : w.rem = [] := hw ▸ (writes_terminated farGrowth hbefore).2
  have hlen : maxLineLength < raw.length := lt_of_lt_of_le hlong (length_stripCr raw)
  have hmax : maxLineLength = 1024 := rfl
  have ha : lineFeed ∉ raw.take 257 := fun h => hraw (mem_of_mem_take h)
  have hb : lineFeed ∉ raw.drop 257 := fun h => hraw (mem_of_mem_drop h)
  have hbne : raw.drop 257 ≠ [] := by
    rw [Ne, drop_eq_nil_iff]
    omega
  have halen : (raw.take 257).length = 257 := length_take_of_le (by omega)
  have hrem' : (w.addToRem farGrowth (raw.take 257)).rem = raw.take 257 := by
    rw [addToRem_rem, hrem, nil_append, length_nil, take_of_length_le (by omega)]
  -- The capacity is the first one, which is too small by now, or was grown.
  have hcap : 1025 ≤ (w.addToRem farGrowth (raw.take 257)).cap := by
    have hgrown : ∀ c n : ℕ, c = 256 ∨ 1025 ≤ c → c < n → n ≤ max c maxLineLength →
        farGrowth.newCap c n = 256 ∨ 1025 ≤ farGrowth.newCap c n :=
      fun c n _ _ _ => .inr (Nat.le_add_left 1025 n)
    have hnew : w.cap = 256 ∨ 1025 ≤ w.cap :=
      hw ▸ writeLoop_cap (P := fun c => c = 256 ∨ 1025 ≤ c) hgrown (.inl rfl) _
    have hadded := writeLoop_cap (P := fun c => c = 256 ∨ 1025 ≤ c) hgrown hnew (raw.take 257)
    have hle := (w.addToRem farGrowth (raw.take 257)).len_le_cap
    rw [writeLoop_open _ _ ha] at hadded
    rw [hrem', halen] at hle
    omega
  have hfinish := finishRem_of_ne_nil farGrowth _ hrem' hbne
  rw [take_append_drop] at hfinish
  have hemitted : maxLineLength <
      (((w.addToRem farGrowth (raw.take 257)).finishRem farGrowth (raw.drop 257)).rem).length := by
    rw [hfinish, length_take]
    omega
  have hstrip : stripCr raw ≠ [] := ne_nil_of_length_pos (by omega)
  have hne := writes_ne after tail hbefore ha hb hw.symm
    (ne_nil_of_length_pos (by omega))
  rw [take_append_drop] at hne
  refine hne hstrip fun heq => ?_
  rw [heq, length_take] at hemitted
  omega

/-- A line one byte too long with two carriage returns differs when slices grow exactly. -/
theorem writes_two_returns (after : List (List UInt8)) (tail : List UInt8)
    (hbefore : ∀ raw ∈ before, Fits raw ∧ lineFeed ∉ raw) (hraw : lineFeed ∉ raw)
    (hlen : raw.length = maxLineLength + 1) (hlast : raw.getLast? = some carriageReturn)
    (hcut : raw[maxLineLength - 1]? = some carriageReturn) :
    (writes exactGrowth [terminated lineFeed before, raw, [] ++ lineFeed :: tail]).out ≠
      cleanLines (before ++ raw :: after) := by
  generalize hw : writes exactGrowth [terminated lineFeed before] = w
  have hrem : w.rem = [] := hw ▸ (writes_terminated exactGrowth hbefore).2
  have hmax : maxLineLength = 1024 := rfl
  have hcap : w.cap ≤ maxLineLength := by
    have hexact : ∀ c n : ℕ, c ≤ maxLineLength → c < n → n ≤ max c maxLineLength →
        exactGrowth.newCap c n ≤ maxLineLength := by
      intro c n hc _ hn
      rwa [Nat.max_eq_right hc] at hn
    exact hw ▸ writeLoop_cap (P := fun c => c ≤ maxLineLength) hexact (by decide) _
  have hrem' : (w.addToRem exactGrowth raw).rem = raw.take maxLineLength := by
    rw [addToRem_rem, hrem, nil_append, length_nil, Nat.max_eq_right hcap, Nat.sub_zero]
  have hreturn : (w.addToRem exactGrowth raw).rem.getLast? = some carriageReturn := by
    have hget : (raw.take maxLineLength)[maxLineLength - 1]? = raw[maxLineLength - 1]? :=
      List.getElem?_take_of_lt (by decide)
    rw [hrem', List.getLast?_eq_getElem?, length_take_of_le (by omega), hget, hcut]
  have hfinish : ((w.addToRem exactGrowth raw).finishRem exactGrowth []).rem.length =
      maxLineLength - 1 := by
    rw [finishRem, if_pos ⟨rfl, hreturn⟩, addToRem_rem, take_nil, append_nil,
      truncate_rem, hrem', length_take, length_take, hlen]
    omega
  have hstrip : (stripCr raw).length = maxLineLength := by
    rw [stripCr, if_pos hlast, length_dropLast, hlen, Nat.add_sub_cancel]
  have hne := writes_ne after tail hbefore hraw not_mem_nil hw.symm
    (ne_nil_of_length_pos (by omega))
  rw [append_nil] at hne
  refine hne (ne_nil_of_length_pos (by omega)) fun heq => ?_
  rw [heq, length_take, hstrip] at hfinish
  omega

end PipeWriter

open PipeWriter

theorem exists_first_not_fits {lines : List (List UInt8)} (h : ¬ ∀ raw ∈ lines, Fits raw) :
    ∃ before raw after, lines = before ++ raw :: after ∧ (∀ x ∈ before, Fits x) ∧ ¬ Fits raw := by
  induction lines with
  | nil => exact absurd (fun _ h => absurd h not_mem_nil) h
  | cons raw lines ih =>
    by_cases hraw : Fits raw
    · have hrest : ¬ ∀ x ∈ lines, Fits x := fun hall =>
        h (forall_mem_cons.mpr ⟨hraw, hall⟩)
      obtain ⟨before, bad, after, rfl, hbefore, hbad⟩ := ih hrest
      exact ⟨raw :: before, bad, after, rfl, forall_mem_cons.mpr ⟨hraw, hbefore⟩, hbad⟩
    · exact ⟨[], raw, lines, rfl, fun _ h => absurd h not_mem_nil, hraw⟩

/-- **Log lines do not depend on the pieces** exactly when each of the lines fits; and `Write`
always reports all bytes as consumed. Source: `log.go` `Write`, `addToRem` -/
theorem lines_independent_iff (s : List UInt8) :
    ((∀ g chunks, chunks.flatten = s →
        (writes g chunks).out = cleanLines (segments lineFeed s).1) ↔
      ∀ raw ∈ (segments lineFeed s).1, Fits raw) ∧
    ∀ g w p, (PipeWriter.write g w p).2 = (p.length, none) := by
  refine ⟨⟨?_, ?_⟩, fun _ _ _ => rfl⟩
  · intro hall
    by_contra hfits
    obtain ⟨heq, hwords, -⟩ := segments_spec lineFeed s
    obtain ⟨before, raw, after, hsplit, hbefore, hraw⟩ := exists_first_not_fits hfits
    rw [hsplit] at hwords heq
    have hplain : ∀ x ∈ before, Fits x ∧ lineFeed ∉ x := fun x hx =>
      ⟨hbefore x hx, hwords x (by simp [hx])⟩
    have hopen : lineFeed ∉ raw := hwords raw (by simp)
    obtain ⟨tail, hstream⟩ :
        ∃ tail, s = terminated lineFeed before ++ (raw ++ lineFeed :: tail) := by
      rw [terminated_append, terminated_cons] at heq
      simp only [append_assoc, cons_append] at heq
      exact ⟨_, heq⟩
    rw [hsplit] at hall
    rcases not_fits_cases hraw with hlong | ⟨hlen, hlast, hcut⟩
    · refine writes_long after tail hplain hopen hlong (hall _ _ (Eq.trans ?_ hstream.symm))
      simp only [flatten_cons, flatten_nil, append_nil]
      rw [← append_assoc (raw.take 257), take_append_drop]
    · refine writes_two_returns after tail hplain hopen hlen hlast hcut
        (hall _ _ (Eq.trans ?_ hstream.symm))
      simp only [flatten_cons, flatten_nil, append_nil, nil_append]
  · intro hfits g chunks hflat
    rw [← hflat] at hfits ⊢
    exact (writes_of_fits g chunks hfits).1

def fullLine : List UInt8 := List.replicate 1023 97 ++ [carriageReturn]

/-- A line of 1025 bytes is cut to 1024, and loses one more when its newline comes in a piece of its
own. -/
theorem pieces_matter :
    (∀ g, (writes g [fullLine ++ [98] ++ [lineFeed]]).out = [fullLine]) ∧
      ∀ g, (writes g [fullLine ++ [98], [lineFeed]]).out = [List.replicate 1023 97] := by
  have hlen : fullLine.length = 1024 := by
    rw [fullLine, length_append, length_replicate]
    rfl
  have hopen : lineFeed ∉ fullLine ++ [98] := by
    intro hmem
    rw [fullLine, mem_append, mem_append, mem_singleton, mem_singleton] at hmem
    rcases hmem with (hmem | hmem) | hmem
    · exact absurd (eq_of_mem_replicate hmem) (by decide)
    all_goals exact absurd hmem (by decide)
  have hrem : ∀ g, (new.addToRem g (fullLine ++ [98])).rem = fullLine := by
    intro g
    rw [addToRem_rem]
    exact take_left' hlen
  have hne : fullLine ≠ [] := ne_nil_of_length_pos (by omega)
  have hlast : fullLine.getLast? = some carriageReturn := List.getLast?_concat ..
  constructor
  · intro g
    have hrun : writes g [fullLine ++ [98] ++ [lineFeed]] =
        (new.endLine g (fullLine ++ [98])).writeLoop g [] := writeLoop_line g new hopen []
    have hfinish : new.finishRem g (fullLine ++ [98]) = new.addToRem g (fullLine ++ [98]) := by
      rw [finishRem, if_neg (fun h => by simp at h), if_neg (by simp [carriageReturn])]
    rw [hrun, writeLoop_open g _ not_mem_nil, addToRem_out, PipeWriter.endLine]
    dsimp only
    rw [hfinish, hrem g, if_pos hne, addToRem_out]
    rfl
  · intro g
    have hrun : writes g [fullLine ++ [98], [lineFeed]] =
        ((new.writeLoop g (fullLine ++ [98])).endLine g []).writeLoop g [] :=
      writeLoop_line g _ not_mem_nil []
    have hfinish : ((new.addToRem g (fullLine ++ [98])).finishRem g []).rem =
        List.replicate 1023 97 := by
      rw [finishRem, hrem g, if_pos ⟨rfl, hlast⟩, addToRem_rem, truncate_rem, hrem g, hlen,
        take_nil, append_nil]
      exact take_left' (length_replicate ..)
    rw [hrun, writeLoop_open g _ not_mem_nil, addToRem_out, writeLoop_open g _ hopen,
      PipeWriter.endLine]
    dsimp only
    rw [hfinish, if_pos (ne_nil_of_length_pos (by rw [length_replicate]; omega)),
      finishRem_out, addToRem_out]
    rfl

end CloudProbe.Daemon
