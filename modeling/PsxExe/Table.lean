/-!
# Tables

A table binds values to keys and lists them in ascending order of the keys. Two tables that answer
every question alike are equal, because the order is part of the type.
-/

namespace PsxExe

/-- Values bound to keys, one for each key, in ascending order of the keys. -/
structure Table (κ α : Type) [Ord κ] where
  entries : List (κ × α)
  ascending : entries.Pairwise fun a b => compare a.1 b.1 = .lt

namespace Table

variable {κ α : Type} [Ord κ]

def empty : Table κ α := ⟨[], .nil⟩

instance : EmptyCollection (Table κ α) := ⟨empty⟩
instance : Inhabited (Table κ α) := ⟨empty⟩

def lookupIn (key : κ) : List (κ × α) → Option α
  | [] => none
  | (k, v) :: rest => if compare key k = .eq then some v else lookupIn key rest

/-- Puts a binding in its place in an ascending list; a binding of the same key gives way. -/
def insertIn (key : κ) (value : α) : List (κ × α) → List (κ × α)
  | [] => [(key, value)]
  | (k, v) :: rest =>
    match compare key k with
    | .lt => (key, value) :: (k, v) :: rest
    | .eq => (key, value) :: rest
    | .gt => (k, v) :: insertIn key value rest

theorem eq_or_mem_of_mem_insertIn {key : κ} {value : α} {a : κ × α} {l : List (κ × α)}
    (h : a ∈ insertIn key value l) : a = (key, value) ∨ a ∈ l := by
  induction l with
  | nil => simpa [insertIn] using h
  | cons head rest ih =>
    obtain ⟨k, v⟩ := head
    rw [insertIn] at h
    split at h
    · simpa using h
    · rcases List.mem_cons.1 h with h | h
      · exact .inl h
      · exact .inr (List.mem_cons_of_mem _ h)
    · rcases List.mem_cons.1 h with h | h
      · exact .inr (h ▸ List.mem_cons_self)
      · exact (ih h).imp_right (List.mem_cons_of_mem _)

def get? (t : Table κ α) (key : κ) : Option α := lookupIn key t.entries

def size (t : Table κ α) : Nat := t.entries.length

@[ext] theorem ext_entries {s t : Table κ α} (h : s.entries = t.entries) : s = t := by
  cases s; cases t; simpa using h

variable [Std.TransOrd κ] [Std.LawfulEqOrd κ]

theorem ascending_insertIn (key : κ) (value : α) {l : List (κ × α)}
    (h : l.Pairwise fun a b => compare a.1 b.1 = .lt) :
    (insertIn key value l).Pairwise fun a b => compare a.1 b.1 = .lt := by
  induction l with
  | nil => simp [insertIn]
  | cons head rest ih =>
    obtain ⟨k, v⟩ := head
    obtain ⟨hk, hrest⟩ := List.pairwise_cons.1 h
    rw [insertIn]
    split
    next hlt =>
      refine List.pairwise_cons.2 ⟨fun a ha => ?_, h⟩
      rcases List.mem_cons.1 ha with rfl | ha
      · exact hlt
      · exact Std.TransCmp.lt_trans hlt (hk a ha)
    next heq =>
      have : key = k := Std.LawfulEqCmp.eq_of_compare heq
      subst this
      exact List.pairwise_cons.2 ⟨hk, hrest⟩
    next hgt =>
      refine List.pairwise_cons.2 ⟨fun a ha => ?_, ih hrest⟩
      rcases eq_or_mem_of_mem_insertIn ha with rfl | ha
      · exact Std.OrientedCmp.gt_iff_lt.1 hgt
      · exact hk a ha

def insert (t : Table κ α) (key : κ) (value : α) : Table κ α :=
  ⟨insertIn key value t.entries, ascending_insertIn key value t.ascending⟩

omit [Std.TransOrd κ] in
theorem lookupIn_insertIn_self (key : κ) (value : α) (l : List (κ × α)) :
    lookupIn key (insertIn key value l) = some value := by
  induction l with
  | nil => simp [insertIn, lookupIn]
  | cons head rest ih =>
    obtain ⟨k, v⟩ := head
    rw [insertIn]
    split
    next => simp [lookupIn]
    next => simp [lookupIn]
    next hgt => simp [lookupIn, hgt, ih]

omit [Std.TransOrd κ] in
theorem lookupIn_insertIn_ne {key other : κ} (hne : other ≠ key) (value : α) (l : List (κ × α)) :
    lookupIn other (insertIn key value l) = lookupIn other l := by
  have hcmp : compare other key ≠ .eq := fun h => hne (Std.LawfulEqCmp.eq_of_compare h)
  induction l with
  | nil => simp [insertIn, lookupIn, hcmp]
  | cons head rest ih =>
    obtain ⟨k, v⟩ := head
    rw [insertIn]
    split
    next => simp [lookupIn, hcmp]
    next heq =>
      have : key = k := Std.LawfulEqCmp.eq_of_compare heq
      subst this
      simp [lookupIn, hcmp]
    next => by_cases h : compare other k = .eq <;> simp [lookupIn, h, ih]

@[simp] theorem get?_insert_self (t : Table κ α) (key : κ) (value : α) :
    (t.insert key value).get? key = some value :=
  lookupIn_insertIn_self key value t.entries

theorem get?_insert_ne (t : Table κ α) {key other : κ} (hne : other ≠ key) (value : α) :
    (t.insert key value).get? other = t.get? other :=
  lookupIn_insertIn_ne hne value t.entries

omit [Std.TransOrd κ] in
theorem mem_of_lookupIn {key : κ} {value : α} {l : List (κ × α)} (h : lookupIn key l = some value) :
    (key, value) ∈ l := by
  induction l with
  | nil => cases h
  | cons head rest ih =>
    obtain ⟨k, v⟩ := head
    rw [lookupIn] at h
    by_cases heq : compare key k = .eq
    · rw [if_pos heq, Option.some.injEq] at h
      obtain rfl := Std.LawfulEqCmp.eq_of_compare heq
      rw [h]
      exact List.mem_cons_self
    · rw [if_neg heq] at h
      exact List.mem_cons_of_mem _ (ih h)

theorem lookupIn_of_mem {key : κ} {value : α} {l : List (κ × α)}
    (hl : l.Pairwise fun a b => compare a.1 b.1 = .lt) (h : (key, value) ∈ l) :
    lookupIn key l = some value := by
  induction l with
  | nil => cases h
  | cons head rest ih =>
    obtain ⟨hhead, hrest⟩ := List.pairwise_cons.1 hl
    rcases List.mem_cons.1 h with rfl | h
    · simp [lookupIn]
    · have hgt : compare key head.1 = .gt := Std.OrientedCmp.gt_iff_lt.2 (hhead _ h)
      simp [lookupIn, hgt, ih hrest h]

theorem mem_entries_iff {t : Table κ α} {key : κ} {value : α} :
    (key, value) ∈ t.entries ↔ t.get? key = some value :=
  ⟨lookupIn_of_mem t.ascending, mem_of_lookupIn⟩

omit [Std.TransOrd κ] [Std.LawfulEqOrd κ] in
theorem insertIn_perm {key : κ} (value : α) {l : List (κ × α)} (h : lookupIn key l = none) :
    (insertIn key value l).Perm ((key, value) :: l) := by
  induction l with
  | nil => exact .refl _
  | cons head rest ih =>
    obtain ⟨k, v⟩ := head
    rw [lookupIn] at h
    rw [insertIn]
    split
    next => exact .refl _
    next heq => simp [heq] at h
    next hgt =>
      simp only [hgt, reduceCtorEq, if_false] at h
      exact ((ih h).cons _).trans (.swap ..)

theorem insertIn_eq_self {key : κ} {value : α} {l : List (κ × α)}
    (hl : l.Pairwise fun a b => compare a.1 b.1 = .lt) (h : lookupIn key l = some value) :
    insertIn key value l = l := by
  induction l with
  | nil => cases h
  | cons head rest ih =>
    obtain ⟨k, v⟩ := head
    obtain ⟨hk, hrest⟩ := List.pairwise_cons.1 hl
    rw [lookupIn] at h
    by_cases heq : compare key k = .eq
    · rw [if_pos heq, Option.some.injEq] at h
      obtain rfl := Std.LawfulEqCmp.eq_of_compare heq
      simp only [insertIn, heq, h]
    · rw [if_neg heq] at h
      have hgt : compare key k = .gt := Std.OrientedCmp.gt_iff_lt.2 (hk _ (mem_of_lookupIn h))
      simp only [insertIn, hgt, ih hrest h]

theorem insert_eq_self {t : Table κ α} {key : κ} {value : α} (h : t.get? key = some value) :
    t.insert key value = t :=
  ext_entries (insertIn_eq_self t.ascending h)

end Table

end PsxExe
