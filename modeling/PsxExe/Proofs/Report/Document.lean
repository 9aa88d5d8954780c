import Mathlib.Data.List.Forall2
import PsxExe.Proofs.Label.Table
import PsxExe.Proofs.Text.Hex
import PsxExe.Report.Document

/-!
# What the databases tell

The databases of regions and labels lose nothing. A region can be read off its fields, apart from where its bytes
are kept, and a label altogether: addresses, whatever their sign and width, permissions and kinds of labels each
have a written form of their own, and the base is there only for a mirror. Both databases list in a canonical
order, so two spaces have the same databases if and only if they have the same regions and labels.
-/

namespace PsxExe

/-! ### Written forms -/

theorem addressDocument_injective : Function.Injective addressDocument := by
  intro v w h
  exact Hex.address_injective (Json.text.inj h)

theorem Permissions.text_eq (p : Permissions) :
    p.text = String.ofList [if p.read then 'r' else '-', if p.write then 'w' else '-',
      if p.execute then 'x' else '-'] := by
  obtain ⟨read, write, execute⟩ := p
  cases read <;> cases write <;> cases execute <;> rfl

theorem eq_of_letter {c : Char} (hc : c ≠ '-') {b b' : Bool} (h : (if b then c else '-') = if b' then c else '-') :
    b = b' := by
  cases b with
  | false =>
    cases b' with
    | false => rfl
    | true => exact absurd h.symm hc
  | true =>
    cases b' with
    | false => exact absurd h hc
    | true => rfl

theorem Permissions.text_injective : Function.Injective Permissions.text := by
  intro p q h
  rw [text_eq, text_eq] at h
  obtain ⟨hread, hrest⟩ := List.cons.inj (String.ofList_injective h)
  obtain ⟨hwrite, hrest⟩ := List.cons.inj hrest
  obtain ⟨hexecute, -⟩ := List.cons.inj hrest
  obtain ⟨read, write, execute⟩ := p
  rw [Permissions.mk.injEq]
  exact ⟨eq_of_letter (by decide) hread, eq_of_letter (by decide) hwrite, eq_of_letter (by decide) hexecute⟩

theorem LabelKind.ofWord_word (kind : LabelKind) : ofWord kind.word = .ok kind := by
  cases kind <;> rfl

theorem LabelKind.word_injective : Function.Injective LabelKind.word := by
  intro kind kind' h
  have hread := congrArg ofWord h
  rw [ofWord_word, ofWord_word] at hread
  exact Except.ok.inj hread

/-! ### Regions -/

/-- Two regions are the same but for the place where their bytes are kept. -/
structure Region.Alike (r q : Region) : Prop where
  name : r.name = q.name
  address : r.address = q.address
  size : r.size = q.size
  read : r.permissions.read = q.permissions.read
  write : r.permissions.write = q.permissions.write
  execute : r.permissions.execute = q.permissions.execute
  initialized : r.initialized = q.initialized
  isMirror : r.isMirror = q.isMirror
  mirrorOf : r.mirrorOf = q.mirrorOf

variable {r q : Region} {s t : AddressSpace}

theorem Region.Alike.permissions (h : r.Alike q) : r.permissions = q.permissions := by
  rw [Permissions.mk.injEq]
  exact ⟨h.read, h.write, h.execute⟩

theorem baseFields_injective : Function.Injective fun mirrorOf : Option Int =>
    match mirrorOf with
    | none => []
    | some base => [("mirror_of", addressDocument base)] := by
  intro x y h
  cases x with
  | none =>
    cases y with
    | none => rfl
    | some base => cases h
  | some base =>
    cases y with
    | none => cases h
    | some base' =>
      obtain ⟨hfield, -⟩ := List.cons.inj h
      exact congrArg some (addressDocument_injective (congrArg Prod.snd hfield))

theorem Region.fields_eq_iff : r.fields = q.fields ↔ r.Alike q := by
  constructor
  · intro h
    obtain ⟨hcommon, hbase⟩ := List.append_inj h rfl
    simp only [List.cons.injEq, Prod.mk.injEq, true_and, and_true, Json.text.injEq, Json.integer.injEq,
      Json.boolean.injEq] at hcommon
    obtain ⟨hname, haddress, -, hsize, hpermissions, hinitialized⟩ := hcommon
    have hpermissions := Permissions.text_injective hpermissions
    have hmirrorOf := baseFields_injective hbase
    exact {
      name := hname
      address := addressDocument_injective haddress
      size := hsize
      read := congrArg _ hpermissions
      write := congrArg _ hpermissions
      execute := congrArg _ hpermissions
      initialized := hinitialized
      isMirror := congrArg Option.isSome hmirrorOf
      mirrorOf := hmirrorOf }
  · intro h
    have hstop : r.stop = q.stop := congrArg₂ (· + ·) h.address h.size
    simp only [fields, h.name, h.address, hstop, h.size, h.permissions, h.initialized, h.mirrorOf]

theorem memoryMapDocument_eq_iff :
    memoryMapDocument s = memoryMapDocument t ↔ List.Forall₂ Region.Alike s.regions t.regions := by
  rw [memoryMapDocument, memoryMapDocument, Json.list.injEq, ← List.forall₂_eq_eq_eq, List.forall₂_map_left_iff,
    List.forall₂_map_right_iff]
  simp only [Json.object.injEq, Region.fields_eq_iff]

/-! ### Labels -/

theorem Label.fields_injective : Function.Injective Label.fields := by
  intro l k h
  simp only [fields, List.cons.injEq, Prod.mk.injEq, true_and, and_true, Json.text.injEq] at h
  obtain ⟨haddress, hname, hkind, hregion⟩ := h
  obtain ⟨address, name, kind, region⟩ := l
  rw [Label.mk.injEq]
  exact ⟨addressDocument_injective haddress, hname, LabelKind.word_injective hkind, hregion⟩

theorem Label.Before.asymm {l k : Label} (h : l.Before k) : ¬ k.Before l := by
  rintro (hlt | ⟨haddress, hnames⟩)
  · rcases h with h | ⟨h, -⟩ <;> omega
  · rcases h with h | ⟨-, h⟩
    · omega
    · exact String.lt_asymm h hnames

namespace LabelTable

theorem find?_eq_some_iff {t : LabelTable} {name : String} {l : Label} :
    t.find? name = some l ↔ l ∈ t.listing ∧ l.name = name := by
  rw [mem_listing]
  constructor
  · intro h
    obtain ⟨b, -, hl⟩ := Option.map_eq_some_iff.1 h
    have hname : l.name = name := (congrArg Label.name hl).symm
    exact ⟨hname ▸ h, hname⟩
  · rintro ⟨h, rfl⟩
    exact h

theorem listing_eq_iff {t u : LabelTable} : t.listing = u.listing ↔ ∀ name, t.find? name = u.find? name := by
  constructor
  · intro h name
    refine Option.ext fun l => ?_
    rw [find?_eq_some_iff, find?_eq_some_iff, h]
  · intro h
    have hperm : t.listing.Perm u.listing := by
      refine (List.perm_ext_iff_of_nodup t.listing_nodup u.listing_nodup).2 fun l => ?_
      rw [mem_listing, mem_listing, h]
    exact hperm.eq_of_pairwise (fun _ _ _ _ hlt hgt => absurd hgt hlt.asymm) t.listing_ascending
      u.listing_ascending

end LabelTable

theorem labelsDocument_eq_iff :
    labelsDocument s = labelsDocument t ↔ ∀ name, s.labels.find? name = t.labels.find? name := by
  have hobject : Function.Injective fun l : Label => Json.object l.fields :=
    fun _ _ h => Label.fields_injective (Json.object.inj h)
  rw [labelsDocument, labelsDocument, Json.list.injEq, (List.map_injective_iff.2 hobject).eq_iff,
    LabelTable.listing_eq_iff]

/-- Two address spaces have the same database of regions if and only if their regions are the same, one by one, but
for the places where the bytes are kept; and the same database of labels if and only if every name has the same
label in both, or none. -/
theorem databases_lossless (s t : AddressSpace) :
    (memoryMapDocument s = memoryMapDocument t ↔ List.Forall₂ Region.Alike s.regions t.regions) ∧
      (labelsDocument s = labelsDocument t ↔ ∀ name, s.labels.find? name = t.labels.find? name) :=
  ⟨memoryMapDocument_eq_iff, labelsDocument_eq_iff⟩

end PsxExe
