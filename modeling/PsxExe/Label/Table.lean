import PsxExe.Label.Basic
import PsxExe.Label.Name
import PsxExe.Sorting
import PsxExe.Table

/-!
# Label tables

A name is bound to one address for good, and the first binding decides its kind and region. An address
can carry several names. The listing is in ascending order of the address and then of the name.
-/

namespace PsxExe

structure Binding where
  address : Int
  kind : LabelKind
  region : String
deriving DecidableEq, Repr, Inhabited

def Binding.label (b : Binding) (name : String) : Label := ⟨b.address, name, b.kind, b.region⟩

structure LabelTable where
  bindings : Table String Binding

namespace LabelTable

def empty : LabelTable := ⟨∅⟩

instance : EmptyCollection LabelTable := ⟨empty⟩
instance : Inhabited LabelTable := ⟨empty⟩

def find? (t : LabelTable) (name : String) : Option Label :=
  (t.bindings.get? name).map (·.label name)

/-- Binds the name of a label, and gives the label that has the name then. A name that is bound to the
same address keeps the label that it has. -/
def add (t : LabelTable) (l : Label) : Except LabelError (Label × LabelTable) :=
  if isLabelName l.name then
    match t.bindings.get? l.name with
    | none => .ok (l, ⟨t.bindings.insert l.name ⟨l.address, l.kind, l.region⟩⟩)
    | some b =>
      if b.address = l.address then .ok (b.label l.name, t)
      else .error (.alreadyDefined l.name b.address)
  else .error (.invalidName l.name)

def byName (t : LabelTable) : List Label := t.bindings.entries.map fun e => e.2.label e.1

/-- Whether a label stands in front of another one, or is the same, in the listing. -/
def precedes (a b : Label) : Bool :=
  decide (a.address < b.address) || (a.address == b.address && decide (a.name ≤ b.name))

def listing (t : LabelTable) : List Label := sortBy precedes t.byName

theorem mem_listing {t : LabelTable} {l : Label} : l ∈ t.listing ↔ t.find? l.name = some l := by
  rw [listing, mem_sortBy, byName, List.mem_map, find?, Option.map_eq_some_iff]
  constructor
  · rintro ⟨⟨name, b⟩, hb, rfl⟩
    exact ⟨b, Table.mem_entries_iff.1 hb, rfl⟩
  · rintro ⟨b, hb, hl⟩
    exact ⟨(l.name, b), Table.mem_entries_iff.2 hb, hl⟩

theorem get?_eq_none_iff {t : LabelTable} {name : String} :
    t.bindings.get? name = none ↔ ∀ l ∈ t.listing, l.name ≠ name := by
  constructor
  · rintro hnone l hl rfl
    rw [mem_listing, find?, hnone] at hl
    cases hl
  · intro hnames
    cases hbound : t.bindings.get? name with
    | none => rfl
    | some b => exact absurd rfl (hnames (b.label name) (mem_listing.2 (congrArg (Option.map _) hbound)))

theorem listing_insert {t : LabelTable} {l : Label} (hfree : t.bindings.get? l.name = none) :
    (LabelTable.mk (t.bindings.insert l.name ⟨l.address, l.kind, l.region⟩)).listing.Perm (l :: t.listing) := by
  have hentries := Table.insertIn_perm ⟨l.address, l.kind, l.region⟩ hfree
  refine (sortBy_perm ..).trans ((hentries.map _).trans ?_)
  exact (sortBy_perm precedes t.byName).symm.cons l

def size (t : LabelTable) : Nat := t.bindings.size

def count (t : LabelTable) (kind : LabelKind) : Nat := t.byName.countP (·.kind == kind)

end LabelTable

end PsxExe
