import Mathlib.Algebra.BigOperators.Group.List.Basic
import Mathlib.Algebra.GroupWithZero.Nat
import Mathlib.Tactic.Common

/-!
# Accounts of things that are counted at once or with a batch

Each thing of type `κ` is either counted at once in a bucket of `β`, or joins the open batch; when
the batch is closed, all that it holds is counted in its bucket. A batch also holds other items, of
type `η`, which are not accounted for.

* **Ledgers** (`Ledger`, `total`): every thing handed over, in order, with what became of it.
* **Books** (`Book`): a ledger with the batches behind it. The field `queued_eq` says that what
  joined a batch is, in order, the contents of the batches, so a book in which something is lost,
  repeated or out of order cannot be built.
-/

namespace CloudProbe.Lib

open List

variable {κ η β : Type*}

/-! ## Ledgers -/

inductive Fate (β : Type*) where
  /-- counted at once -/
  | counted (b : β)
  /-- in the open batch, not counted yet -/
  | pending
  /-- counted with its batch -/
  | batched (b : β)
deriving DecidableEq

namespace Fate

/-- The bucket a thing is counted in, if it is counted. -/
def bucket : Fate β → Option β
  | counted b => some b
  | pending => none
  | batched b => some b

/-- Whether a thing joined a batch, and the bucket of that batch once it is closed. -/
def queued : Fate β → Option (Option β)
  | counted _ => none
  | pending => some none
  | batched b => some (some b)

def settle (b : β) : Fate β → Fate β
  | counted c => counted c
  | pending => batched b
  | batched c => batched c

def atOnce : Fate β → Option β
  | counted b => some b
  | pending => none
  | batched _ => none

@[simp] theorem atOnce_settle (b : β) (x : Fate β) : (x.settle b).atOnce = x.atOnce := by
  cases x <;> rfl

theorem bucket_settle (b : β) (x : Fate β) : (x.settle b).bucket = some (x.bucket.getD b) := by
  cases x <;> rfl

theorem queued_settle (b : β) (x : Fate β) :
    (x.settle b).queued = x.queued.map fun q => some (q.getD b) := by
  cases x <;> rfl

end Fate

/-- The things handed over, in order, each with its fate. -/
abbrev Ledger (κ β : Type*) := List (κ × Fate β)

namespace Ledger

def settle (b : β) (l : Ledger κ β) : Ledger κ β := l.map fun e => (e.1, e.2.settle b)

variable (f : κ → ℕ) (b : β) (l : Ledger κ β)

@[simp] theorem map_fst_settle :
    (settle b l).map Prod.fst = l.map Prod.fst := by
  simp [settle]

/-- For each thing handed over, the bucket it was counted in at once. -/
def verdicts (l : Ledger κ β) : List (Option β) := l.map fun e => e.2.atOnce

@[simp] theorem verdicts_settle : (settle b l).verdicts = l.verdicts := by
  simp [verdicts, settle]

/-- The things that joined a batch, each with the bucket of its batch once closed. -/
def queued (l : Ledger κ β) : List (κ × Option β) :=
  l.filterMap fun e => e.2.queued.map fun q => (e.1, q)

theorem queued_concat (k : κ) (x : Fate β) :
    queued (l ++ [(k, x)]) = l.queued ++ (x.queued.map fun q => (k, q)).toList := by
  rw [queued, filterMap_append]
  cases x <;> rfl

theorem queued_settle :
    (settle b l).queued = l.queued.map fun q => (q.1, some (q.2.getD b)) := by
  simp only [queued, settle, filterMap_map, map_filterMap]
  congr 1
  funext e
  simp only [Function.comp_apply, Fate.queued_settle, Option.map_map]
  rfl

variable [DecidableEq β]

/-- The sum of `f` over the entries of a bucket; `none` selects the entries not counted yet. -/
def total (f : κ → ℕ) (b : Option β) (l : Ledger κ β) : ℕ :=
  (l.map fun e => if e.2.bucket = b then f e.1 else 0).sum

@[simp] theorem total_nil (b : Option β) : total f b [] = 0 := rfl

theorem total_append (b : Option β) (l m : Ledger κ β) :
    total f b (l ++ m) = total f b l + total f b m := by
  simp [total]

theorem total_concat (b : Option β) (l : Ledger κ β) (k : κ) (x : Fate β) :
    total f b (l ++ [(k, x)]) = total f b l + if x.bucket = b then f k else 0 := by
  rw [total_append]
  simp [total]

theorem total_settle (c : β) (l : Ledger κ β) :
    total f (some c) (settle b l) =
      total f (some c) l + if b = c then total f none l else 0 := by
  induction l with
  | nil => simp [settle]
  | cons e l ih =>
    simp only [settle, total, map_cons, sum_cons, Fate.bucket_settle] at ih ⊢
    rw [ih]
    rcases e with ⟨k, x⟩
    cases hx : x.bucket with
    | none | some a => by_cases hbc : b = c <;> simp [hbc]; omega

theorem total_none_eq :
    total f none l = (l.queued.map fun q => if q.2 = none then f q.1 else 0).sum := by
  induction l with
  | nil => rfl
  | cons e l ih =>
    rcases e with ⟨k, x⟩
    simp only [total, map_cons, sum_cons] at ih ⊢
    rw [ih]
    cases x <;> simp [queued, Fate.bucket, Fate.queued]

end Ledger

/-! ## Batches -/

/-- The things of a batch that are accounted for. -/
def accounted (batch : List (κ ⊕ η)) : List κ := batch.filterMap Sum.getLeft?

def others (batch : List (κ ⊕ η)) : List η := batch.filterMap Sum.getRight?

section Parts

variable (k : κ) (x : η) (batch rest : List (κ ⊕ η))

@[simp] theorem accounted_nil : accounted ([] : List (κ ⊕ η)) = [] := rfl

@[simp] theorem accounted_inl : accounted (.inl k :: batch) = k :: accounted batch := rfl

@[simp] theorem accounted_inr : accounted (.inr x :: batch) = accounted batch := rfl

@[simp] theorem accounted_append : accounted (batch ++ rest) = accounted batch ++ accounted rest :=
  filterMap_append

@[simp] theorem others_nil : others ([] : List (κ ⊕ η)) = [] := rfl

@[simp] theorem others_inl : others (.inl k :: batch) = others batch := rfl

@[simp] theorem others_inr : others (.inr x :: batch) = x :: others batch := rfl

@[simp] theorem others_append : others (batch ++ rest) = others batch ++ others rest :=
  filterMap_append

end Parts

theorem length_accounted_add_others (batch : List (κ ⊕ η)) :
    (accounted batch).length + (others batch).length = batch.length := by
  induction batch with
  | nil => rfl
  | cons x batch ih =>
    cases x with
    | inl k => simp only [accounted_inl, others_inl, length_cons]; omega
    | inr x => simp only [accounted_inr, others_inr, length_cons]; omega

/-- Contents of closed batches, each with the bucket of its batch. -/
def settledThings (closed : List (List (κ ⊕ η) × β)) : List (κ × Option β) :=
  closed.flatMap fun c => (accounted c.1).map fun k => (k, some c.2)

/-- A ledger with the batches behind it. -/
structure Book (κ η β : Type*) where
  ledger : Ledger κ β
  /-- the closed batches, each with the bucket of its outcome -/
  closed : List (List (κ ⊕ η) × β)
  /-- the open batch -/
  current : List (κ ⊕ η)
  queued_eq : ledger.queued = settledThings closed ++ (accounted current).map fun k => (k, none)

namespace Book

def empty : Book κ η β where
  ledger := []
  closed := []
  current := []
  queued_eq := rfl

def refuse (B : Book κ η β) (k : κ) (b : β) : Book κ η β where
  ledger := B.ledger ++ [(k, .counted b)]
  closed := B.closed
  current := B.current
  queued_eq := by
    rw [Ledger.queued_concat, B.queued_eq]
    simp [Fate.queued]

def accept (B : Book κ η β) (k : κ) : Book κ η β where
  ledger := B.ledger ++ [(k, .pending)]
  closed := B.closed
  current := B.current ++ [.inl k]
  queued_eq := by
    rw [Ledger.queued_concat, B.queued_eq]
    simp [Fate.queued]

def insert (B : Book κ η β) (x : η) : Book κ η β where
  ledger := B.ledger
  closed := B.closed
  current := B.current ++ [.inr x]
  queued_eq := by
    rw [B.queued_eq]
    simp

def close (B : Book κ η β) (b : β) : Book κ η β where
  ledger := B.ledger.settle b
  closed := B.closed ++ [(B.current, b)]
  current := []
  queued_eq := by
    rw [Ledger.queued_settle, B.queued_eq]
    simp [settledThings, map_flatMap, Function.comp_def]

/-- Every item that joined a batch, in order. -/
def items (B : Book κ η β) : List (κ ⊕ η) := B.closed.flatMap Prod.fst ++ B.current

section Items

variable (B : Book κ η β)

@[simp] theorem items_refuse (k : κ) (b : β) : (B.refuse k b).items = B.items := rfl

@[simp] theorem items_accept (k : κ) : (B.accept k).items = B.items ++ [.inl k] :=
  (append_assoc _ _ _).symm

@[simp] theorem items_insert (x : η) : (B.insert x).items = B.items ++ [.inr x] :=
  (append_assoc _ _ _).symm

@[simp] theorem items_close (b : β) : (B.close b).items = B.items := by
  simp [items, close]

end Items

variable (B : Book κ η β)

theorem bucket_ne_none (hnil : B.current = []) :
    ∀ e ∈ B.ledger, e.2.bucket ≠ none := by
  rintro ⟨k, x⟩ he hnone
  have hmem : (k, none) ∈ B.ledger.queued := by
    refine mem_filterMap.mpr ⟨(k, x), he, ?_⟩
    cases x with
    | counted b | batched b => cases hnone
    | pending => rfl
  rw [B.queued_eq, hnil, accounted_nil, map_nil, append_nil] at hmem
  obtain ⟨c, -, hc⟩ := mem_flatMap.mp hmem
  obtain ⟨k', -, heq⟩ := mem_map.mp hc
  cases heq

variable [DecidableEq β]

theorem total_none (f : κ → ℕ) :
    B.ledger.total f none = ((accounted B.current).map f).sum := by
  rw [Ledger.total_none_eq, B.queued_eq, map_append, sum_append]
  have hclosed : ((settledThings B.closed).map fun q => if q.2 = none then f q.1 else 0).sum =
      0 := by
    apply sum_eq_zero
    intro n hn
    obtain ⟨q, hq, rfl⟩ := mem_map.mp hn
    obtain ⟨c, -, hc⟩ := mem_flatMap.mp hq
    obtain ⟨k, -, rfl⟩ := mem_map.mp hc
    rfl
  rw [hclosed, Nat.zero_add, map_map]
  rfl

theorem total_close (f : κ → ℕ) (b c : β) :
    (B.close b).ledger.total f (some c) =
      B.ledger.total f (some c) + if b = c then ((accounted B.current).map f).sum else 0 := by
  rw [close, Ledger.total_settle, B.total_none]

/-- The other items in the closed batches of bucket `b`. -/
def delivered (B : Book κ η β) (b : β) : ℕ :=
  (B.closed.map fun c => if c.2 = b then (others c.1).length else 0).sum

theorem delivered_close (b c : β) :
    (B.close b).delivered c = B.delivered c + if b = c then (others B.current).length else 0 := by
  simp [delivered, close]

end Book

end CloudProbe.Lib
