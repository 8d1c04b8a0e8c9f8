import CloudProbe.Daemon.HashInput

/-!
# The paths of labels

The key of a label is the path to its leaf, with dots between the names. Names have no dots and the
names of a struct differ, so a label map says which leaves a value has, and where
(`same_of_labels_eq`).
-/

namespace CloudProbe.Daemon

open Lib List

namespace GoValue

def indexName (i : ℕ) : List Char := (toString i).toList

mutual

/-- The leaves of a value with the names on the way to each. -/
def leaves : GoValue → List (List (List Char) × String)
  | .nil => []
  | .ptr elem => leaves elem
  | .struct fields => fieldLeaves fields
  | .slice items => itemLeaves 0 items
  | .leaf text => [([], text)]

def fieldLeaves : List (String × GoValue) → List (List (List Char) × String)
  | [] => []
  | (name, field) :: fields =>
    ((leaves field).map fun l => (name.toList :: l.1, l.2)) ++ fieldLeaves fields

/-- The leaves of the items of a slice, from index `i` on. -/
def itemLeaves (i : ℕ) : List GoValue → List (List (List Char) × String)
  | [] => []
  | item :: items =>
    ((leaves item).map fun l => (indexName i :: l.1, l.2)) ++ itemLeaves (i + 1) items

end

mutual

/-- Names have no dot, and the names of a struct differ. -/
def Formed : GoValue → Prop
  | .nil => True
  | .ptr elem => Formed elem
  | .struct fields =>
    (fields.map Prod.fst).Nodup ∧ (∀ name ∈ fields.map Prod.fst, '.' ∉ name.toList) ∧
      FormedFields fields
  | .slice items => FormedItems items
  | .leaf _ => True

def FormedFields : List (String × GoValue) → Prop
  | [] => True
  | (_, field) :: fields => Formed field ∧ FormedFields fields

def FormedItems : List GoValue → Prop
  | [] => True
  | item :: items => Formed item ∧ FormedItems items

end

def dotted (path : List (List Char)) : String :=
  String.ofList (trimSuffixDot (terminated '.' path))

/-! ## The walk writes the leaves -/

mutual

theorem appendFingerprintLabels_eq (front : List (List Char)) : (v : GoValue) →
    appendFingerprintLabels (terminated '.' front) v =
      (leaves v).map fun l => (dotted (front ++ l.1), l.2)
  | .nil => rfl
  | .ptr elem => by
    rw [appendFingerprintLabels, leaves]
    exact appendFingerprintLabels_eq front elem
  | .struct fields => by
    rw [appendFingerprintLabels, leaves]
    exact appendFieldLabels_eq front fields
  | .slice items => by
    rw [appendFingerprintLabels, leaves]
    exact appendItemLabels_eq front 0 items
  | .leaf text => by simp [appendFingerprintLabels, leaves, dotted]

theorem appendFieldLabels_eq (front : List (List Char)) : (fields : List (String × GoValue)) →
    appendFieldLabels (terminated '.' front) fields =
      (fieldLeaves fields).map fun l => (dotted (front ++ l.1), l.2)
  | [] => rfl
  | (name, field) :: fields => by
    have hpath : terminated '.' front ++ name.toList ++ ['.'] =
        terminated '.' (front ++ [name.toList]) := by simp
    rw [appendFieldLabels, fieldLeaves, hpath, appendFingerprintLabels_eq _ field,
      appendFieldLabels_eq front fields]
    simp [Function.comp_def]

theorem appendItemLabels_eq (front : List (List Char)) (i : ℕ) : (items : List GoValue) →
    appendItemLabels (terminated '.' front) i items =
      (itemLeaves i items).map fun l => (dotted (front ++ l.1), l.2)
  | [] => rfl
  | item :: items => by
    have hpath : terminated '.' front ++ (toString i).toList ++ ['.'] =
        terminated '.' (front ++ [indexName i]) := by simp [indexName]
    rw [appendItemLabels, itemLeaves, hpath, appendFingerprintLabels_eq _ item,
      appendItemLabels_eq front (i + 1) items]
    simp [Function.comp_def]

end

/-! ## Paths are unique -/

theorem indexName_inj {i j : ℕ} (h : indexName i = indexName j) : i = j :=
  toString_nat_inj (String.toList_injective h)

theorem dot_notMem_indexName (i : ℕ) : '.' ∉ indexName i := by
  intro hmem
  exact absurd (isDigit_of_mem_toString hmem) (by decide)

theorem mem_fieldLeaves {fields : List (String × GoValue)} {path : List (List Char)}
    {text : String} :
    (path, text) ∈ fieldLeaves fields ↔
      ∃ f ∈ fields, ∃ rest, (rest, text) ∈ leaves f.2 ∧ path = f.1.toList :: rest := by
  induction fields with
  | nil => simp [fieldLeaves]
  | cons f fields ih =>
    rw [fieldLeaves, mem_append, ih, exists_mem_cons_iff]
    refine or_congr_left ?_
    simp only [mem_map, Prod.mk.injEq, Prod.exists]
    constructor
    · rintro ⟨rest, t, hmem, rfl, rfl⟩
      exact ⟨rest, hmem, rfl⟩
    · rintro ⟨rest, hmem, rfl⟩
      exact ⟨rest, text, hmem, rfl, rfl⟩

theorem mem_itemLeaves {items : List GoValue} {i : ℕ} {path : List (List Char)} {text : String} :
    (path, text) ∈ itemLeaves i items ↔
      ∃ j, ∃ item, items[j]? = some item ∧
        ∃ rest, (rest, text) ∈ leaves item ∧ path = indexName (i + j) :: rest := by
  induction items generalizing i with
  | nil => simp [itemLeaves]
  | cons item items ih =>
    rw [itemLeaves, mem_append, ih]
    constructor
    · rintro (hhead | ⟨j, other, hget, rest, hmem, rfl⟩)
      · obtain ⟨⟨rest, t⟩, hmem, heq⟩ := mem_map.mp hhead
        obtain ⟨rfl, rfl⟩ := Prod.mk.inj heq
        exact ⟨0, item, rfl, rest, hmem, rfl⟩
      · exact ⟨j + 1, other, hget, rest, hmem, by rw [Nat.add_assoc, Nat.add_comm 1 j]⟩
    · rintro ⟨j, other, hget, rest, hmem, rfl⟩
      rcases j with _ | j
      · obtain rfl := Option.some.inj hget
        exact .inl (mem_map.mpr ⟨(rest, text), hmem, rfl⟩)
      · exact .inr ⟨j, other, hget, rest, hmem, by rw [Nat.add_assoc, Nat.add_comm 1 j]⟩

mutual

theorem dot_notMem_path : (v : GoValue) → v.Formed → ∀ path text, (path, text) ∈ leaves v →
    ∀ name ∈ path, '.' ∉ name
  | .nil, _, _, _, hmem => by simp [leaves] at hmem
  | .ptr elem, h, path, text, hmem =>
    dot_notMem_path elem h path text (by simpa [leaves] using hmem)
  | .struct fields, h, path, text, hmem => by
    rw [leaves] at hmem
    exact dot_notMem_fieldPath fields h.2.1 h.2.2 path text hmem
  | .slice items, h, path, text, hmem => by
    rw [leaves] at hmem
    exact dot_notMem_itemPath 0 items h path text hmem
  | .leaf _, _, path, text, hmem => by
    obtain ⟨rfl, -⟩ : path = [] ∧ _ := by simpa [leaves] using hmem
    simp

theorem dot_notMem_fieldPath : (fields : List (String × GoValue)) →
    (∀ name ∈ fields.map Prod.fst, '.' ∉ name.toList) → FormedFields fields →
    ∀ path text, (path, text) ∈ fieldLeaves fields → ∀ name ∈ path, '.' ∉ name
  | [], _, _, _, _, hmem => by simp [fieldLeaves] at hmem
  | (first, field) :: fields, hnames, h, path, text, hmem => by
    rw [fieldLeaves, mem_append] at hmem
    rcases hmem with hmem | hmem
    · obtain ⟨⟨rest, t⟩, hrest, heq⟩ := mem_map.mp hmem
      obtain ⟨rfl, rfl⟩ := Prod.mk.inj heq
      refine forall_mem_cons.mpr ⟨hnames first (by simp), ?_⟩
      exact dot_notMem_path field h.1 rest t hrest
    · exact dot_notMem_fieldPath fields (fun n hn => hnames n (by simp [hn])) h.2 path text hmem

theorem dot_notMem_itemPath (i : ℕ) : (items : List GoValue) → FormedItems items →
    ∀ path text, (path, text) ∈ itemLeaves i items → ∀ name ∈ path, '.' ∉ name
  | [], _, _, _, hmem => by simp [itemLeaves] at hmem
  | item :: items, h, path, text, hmem => by
    rw [itemLeaves, mem_append] at hmem
    rcases hmem with hmem | hmem
    · obtain ⟨⟨rest, t⟩, hrest, heq⟩ := mem_map.mp hmem
      obtain ⟨rfl, rfl⟩ := Prod.mk.inj heq
      refine forall_mem_cons.mpr ⟨dot_notMem_indexName i, ?_⟩
      exact dot_notMem_path item h.1 rest t hrest
    · exact dot_notMem_itemPath (i + 1) items h.2 path text hmem

end

theorem nodup_map_cons {name : List Char} {ls : List (List (List Char) × String)}
    (h : (ls.map Prod.fst).Nodup) :
    ((ls.map fun l => (name :: l.1, l.2)).map Prod.fst).Nodup := by
  have hmap : (ls.map fun l => (name :: l.1, l.2)).map Prod.fst =
      (ls.map Prod.fst).map (name :: ·) := by simp
  rw [hmap]
  exact h.map fun _ _ heq => (List.cons.inj heq).2

mutual

theorem nodup_paths : (v : GoValue) → v.Formed → ((leaves v).map Prod.fst).Nodup
  | .nil, _ | .leaf _, _ => by simp [leaves]
  | .ptr elem, h => by
    rw [leaves]
    exact nodup_paths elem h
  | .struct fields, h => by
    rw [leaves]
    exact nodup_fieldPaths fields h.1 h.2.2
  | .slice items, h => by
    rw [leaves]
    exact nodup_itemPaths 0 items h

/-- No path is written twice. -/
theorem nodup_fieldPaths : (fields : List (String × GoValue)) → (fields.map Prod.fst).Nodup →
    FormedFields fields → ((fieldLeaves fields).map Prod.fst).Nodup
  | [], _, _ => by simp [fieldLeaves]
  | (name, field) :: fields, hnames, h => by
    obtain ⟨hnew, hnames⟩ := nodup_cons.mp hnames
    rw [fieldLeaves, map_append]
    apply List.Nodup.append (nodup_map_cons (nodup_paths field h.1))
      (nodup_fieldPaths fields hnames h.2)
    intro path hhead htail
    obtain ⟨⟨_, t⟩, hmem, rfl⟩ := mem_map.mp htail
    obtain ⟨f, hf, rest, -, hpath⟩ := mem_fieldLeaves.mp hmem
    simp only [hpath, map_map, mem_map, Function.comp_apply] at hhead
    obtain ⟨_, -, heq⟩ := hhead
    have hname : name = f.1 := String.toList_injective (List.cons.inj heq).1
    exact hnew (mem_map.mpr ⟨f, hf, hname.symm⟩)

theorem nodup_itemPaths (i : ℕ) : (items : List GoValue) → FormedItems items →
    ((itemLeaves i items).map Prod.fst).Nodup
  | [], _ => by simp [itemLeaves]
  | item :: items, h => by
    rw [itemLeaves, map_append]
    apply List.Nodup.append (nodup_map_cons (nodup_paths item h.1))
      (nodup_itemPaths (i + 1) items h.2)
    intro path hhead htail
    obtain ⟨⟨_, t⟩, hmem, rfl⟩ := mem_map.mp htail
    obtain ⟨j, _, -, rest, -, hpath⟩ := mem_itemLeaves.mp hmem
    simp only [hpath, map_map, mem_map, Function.comp_apply] at hhead
    obtain ⟨_, -, heq⟩ := hhead
    have hindex := indexName_inj (List.cons.inj heq).1
    omega

end

/-! ## From labels back to leaves -/

def Same (v w : GoValue) : Prop := ∀ l, l ∈ leaves v ↔ l ∈ leaves w

theorem Same.symm {v w : GoValue} (h : Same v w) : Same w v := fun l => (h l).symm

theorem dotted_inj {path path' : List (List Char)} (hdot : ∀ name ∈ path, '.' ∉ name)
    (hdot' : ∀ name ∈ path', '.' ∉ name) (hne : path ≠ []) (hne' : path' ≠ [])
    (h : dotted path = dotted path') : path = path' := by
  apply dropLast_terminated_inj hdot hdot' hne hne'
  have hkeys := String.ofList_injective h
  rwa [trimSuffixDot, trimSuffixDot, if_pos (getLast?_terminated hne),
    if_pos (getLast?_terminated hne')] at hkeys

def writes (v : GoValue) : List (String × String) := (leaves v).map fun l => (dotted l.1, l.2)

theorem structFingerprintLabels_eq (v : GoValue) :
    structFingerprintLabels v = Labels.ofWrites (writes v) := by
  show Labels.ofWrites (appendFingerprintLabels (terminated '.' []) v) = _
  rw [appendFingerprintLabels_eq]
  rfl

theorem path_ne_nil {fields : List (String × GoValue)} {l : List (List Char) × String}
    (hl : l ∈ leaves (.struct fields)) : l.1 ≠ [] := by
  rw [leaves] at hl
  obtain ⟨f, -, rest, -, hpath⟩ := mem_fieldLeaves.mp hl
  rw [hpath]
  exact cons_ne_nil _ _

section labels

variable {fields fields' : List (String × GoValue)}

theorem path_eq_of_dotted_eq (h : (GoValue.struct fields).Formed)
    (h' : (GoValue.struct fields').Formed) {l l' : List (List Char) × String}
    (hl : l ∈ leaves (.struct fields)) (hl' : l' ∈ leaves (.struct fields'))
    (hkey : dotted l.1 = dotted l'.1) : l.1 = l'.1 :=
  dotted_inj (dot_notMem_path _ h l.1 l.2 hl) (dot_notMem_path _ h' l'.1 l'.2 hl')
    (path_ne_nil hl) (path_ne_nil hl') hkey

theorem nodup_writes (h : (GoValue.struct fields).Formed) :
    ((writes (.struct fields)).map Prod.fst).Nodup := by
  have hmap : (writes (.struct fields)).map Prod.fst =
      ((leaves (.struct fields)).map Prod.fst).map dotted := by simp [writes]
  rw [hmap]
  apply List.Nodup.map_on _ (nodup_paths _ h)
  intro path hpath path' hpath' hkey
  obtain ⟨l, hl, rfl⟩ := mem_map.mp hpath
  obtain ⟨l', hl', rfl⟩ := mem_map.mp hpath'
  exact path_eq_of_dotted_eq h h hl hl' hkey

/-- Structs with the same labels have the same leaves. -/
theorem mem_leaves_of_labels_eq (h : (GoValue.struct fields).Formed)
    (h' : (GoValue.struct fields').Formed)
    (heq : structFingerprintLabels (.struct fields) = structFingerprintLabels (.struct fields'))
    {l : List (List Char) × String} (hl : l ∈ leaves (.struct fields)) :
    l ∈ leaves (.struct fields') := by
  have hwrite : (dotted l.1, l.2) ∈ writes (.struct fields) := mem_map_of_mem hl
  rw [mem_writes_iff (nodup_writes h), ← structFingerprintLabels_eq, heq,
    structFingerprintLabels_eq, ← mem_writes_iff (nodup_writes h')] at hwrite
  obtain ⟨l', hl', heq'⟩ := mem_map.mp hwrite
  obtain ⟨hkey, htext⟩ := Prod.mk.inj heq'
  have hpath := path_eq_of_dotted_eq h' h hl' hl hkey
  rwa [← Prod.ext hpath htext]

theorem same_of_labels_eq (h : (GoValue.struct fields).Formed)
    (h' : (GoValue.struct fields').Formed)
    (heq : structFingerprintLabels (.struct fields) = structFingerprintLabels (.struct fields')) :
    Same (.struct fields) (.struct fields') := fun _ =>
  ⟨mem_leaves_of_labels_eq h h' heq, mem_leaves_of_labels_eq h' h heq.symm⟩

end labels

/-! ## What the leaves say of a value -/

theorem Same.leaf {text text' : String} (h : Same (.leaf text) (.leaf text')) : text = text' := by
  have hmem := (h ([], text)).mp (by simp [leaves])
  simpa [leaves] using hmem

theorem mem_first_field {name : String} {field : GoValue} {fields : List (String × GoValue)}
    (hnew : name ∉ fields.map Prod.fst) (l : List (List Char) × String) :
    (name.toList :: l.1, l.2) ∈ leaves (.struct ((name, field) :: fields)) ↔ l ∈ leaves field := by
  rw [leaves, mem_fieldLeaves, exists_mem_cons_iff]
  constructor
  · rintro (⟨rest, hmem, hpath⟩ | ⟨f, hf, rest, -, hpath⟩)
    · obtain ⟨-, rfl⟩ := List.cons.inj hpath
      exact hmem
    · have hname : f.1 = name := String.toList_injective (List.cons.inj hpath).1.symm
      exact absurd (mem_map.mpr ⟨f, hf, hname⟩) hnew
  · exact fun hmem => .inl ⟨l.1, hmem, rfl⟩

/-- Fields behind the first have the same leaves, too. -/
theorem mem_later_fields {name : String} {field field' : GoValue}
    {fields fields' : List (String × GoValue)} (hnew : name ∉ fields.map Prod.fst)
    (h : Same (.struct ((name, field) :: fields)) (.struct ((name, field') :: fields')))
    {l : List (List Char) × String} (hl : l ∈ leaves (.struct fields)) :
    l ∈ leaves (.struct fields') := by
  rw [leaves] at hl
  obtain ⟨f, hf, rest, hrest, hpath⟩ := mem_fieldLeaves.mp hl
  have hwhole : l ∈ leaves (.struct ((name, field) :: fields)) := by
    rw [leaves, fieldLeaves]
    exact mem_append_right _ hl
  have hother := (h l).mp hwhole
  rw [leaves] at hother ⊢
  obtain ⟨g, hg, rest', hrest', hpath'⟩ := mem_fieldLeaves.mp hother
  rcases mem_cons.mp hg with rfl | hg
  · rw [hpath] at hpath'
    have hname : f.1 = name := String.toList_injective (List.cons.inj hpath').1
    exact absurd (mem_map.mpr ⟨f, hf, hname⟩) hnew
  · exact mem_fieldLeaves.mpr ⟨g, hg, rest', hrest', hpath'⟩

/-- **Field by field**: structs of one type with the same leaves agree in each field. -/
theorem Same.fields {fields fields' : List (String × GoValue)}
    (hnodup : (fields.map Prod.fst).Nodup)
    (hnames : fields.map Prod.fst = fields'.map Prod.fst)
    (h : Same (.struct fields) (.struct fields')) :
    List.Forall₂ (fun f g => Same f.2 g.2) fields fields' := by
  induction fields generalizing fields' with
  | nil =>
    obtain rfl : fields' = [] := map_eq_nil_iff.mp hnames.symm
    exact .nil
  | cons f fields ih =>
    rcases fields' with _ | ⟨⟨name, field'⟩, fields'⟩
    · cases hnames
    · obtain ⟨rfl, hlater⟩ := List.cons.inj hnames
      obtain ⟨hnew, hnodup⟩ := nodup_cons.mp hnodup
      have hnew' : f.1 ∉ fields'.map Prod.fst := hlater ▸ hnew
      refine .cons (fun l => ?_) (ih hnodup hlater fun l => ⟨?_, ?_⟩)
      · rw [← mem_first_field hnew l, ← mem_first_field hnew' l]
        exact h _
      · exact mem_later_fields hnew h
      · exact mem_later_fields hnew' h.symm

theorem Same.ofOption {α : Type} [ToString α] (hinj : ∀ a b : α, toString a = toString b → a = b)
    {x y : Option α} (h : Same (.ofOption x) (.ofOption y)) : x = y := by
  match x, y with
  | none, none => rfl
  | some a, none =>
    have hmem := (h ([], toString a)).mp (by simp [GoValue.ofOption, leaves])
    simp [GoValue.ofOption, leaves] at hmem
  | none, some b =>
    have hmem := (h ([], toString b)).mpr (by simp [GoValue.ofOption, leaves])
    simp [GoValue.ofOption, leaves] at hmem
  | some a, some b =>
    have hleaf : Same (.leaf (toString a)) (.leaf (toString b)) := fun l => by
      simpa [GoValue.ofOption, leaves] using h l
    rw [hinj a b hleaf.leaf]

end GoValue

end CloudProbe.Daemon
