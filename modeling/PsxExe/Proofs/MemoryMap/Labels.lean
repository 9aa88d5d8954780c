import PsxExe.Proofs.MemoryMap.Blocks

/-!
# The labels of a map

When the names that requests ask for are free and different, all of them are bound. A label remembers the region
that its address lies in when it is made, and that is still the region of the address at the end: what is mapped
stays mapped, and where typed data was refused because nothing was mapped, requests that are apart from it map
nothing later.
-/

namespace PsxExe

open AddressSpace Request

variable {host : Host} {file : Bytes} {s t : AddressSpace} {r : Request} {l : List Request} {a : Int}
  {name : String}

namespace AddressSpace

theorem SameMemory.regionNameAt_eq (h : SameMemory s t) (a : Int) : t.regionNameAt a = s.regionNameAt a := by
  simp only [regionNameAt, regionAt, h.regions]

theorem Spares.regionNameAt_eq (h : Spares s t a) (hk : Keeps s t) (ht : t.Arranged) :
    t.regionNameAt a = s.regionNameAt a := by
  cases hregion : s.regionAt a with
  | none => rw [regionNameAt, h.unmapped hregion, regionNameAt, hregion]
  | some q => rw [regionNameAt, hk.regionAt ht hregion, regionNameAt, hregion]

/-- A label, in the region that is mapped at its address. -/
def labelAt (s : AddressSpace) (kind : LabelKind) (p : Int × String) : Label :=
  ⟨p.1, p.2, kind, s.regionNameAt p.1⟩

theorem createLabel_of_free (hfree : ¬ s.labels.Taken name) (a : Int) (kind : LabelKind) :
    ∃ labels, s.createLabel a name kind = .ok (s.labelAt kind (a, name), { s with labels }) ∧
      labels.listing.Perm (s.labelAt kind (a, name) :: s.labels.listing) := by
  obtain ⟨hname, hunbound⟩ := LabelTable.not_taken_iff.1 hfree
  have hadd := LabelTable.add_of_free (l := s.labelAt kind (a, name)) hname hunbound
  exact ⟨_, createLabel_eq_ok_iff.2 ⟨_, hadd, rfl⟩, LabelTable.listing_insert hunbound⟩

end AddressSpace

namespace Request

/-- The addresses and names for which requests want labels. -/
def wanted (l : List Request) : List (Int × String) := l.filterMap label?

theorem typed_of_label (hlabel : r.label? = some (a, name)) : r.typed? = some a := by
  cases r with
  | region k => cases hlabel
  | mirror m => cases hlabel
  | data d =>
    obtain ⟨rfl, -⟩ := data_label?.1 hlabel
    rfl

theorem apply_listing (hfree : ∀ p ∈ r.label?, ¬ s.labels.Taken p.2) :
    (r.apply host file s).space.labels.listing.Perm
      (r.label?.toList.map ((r.apply host file s).space.labelAt .register) ++ s.labels.listing) := by
  have hcreated := @applyCreation_labels host file r s
  cases hlabel : r.label? with
  | none =>
    rw [apply, applyLabel, hlabel]
    exact .of_eq (congrArg LabelTable.listing hcreated)
  | some p =>
    have hfree := hfree p hlabel
    rw [← hcreated] at hfree ⊢
    obtain ⟨labels, hlabelled, hlisting⟩ := createLabel_of_free hfree p.1 .register
    have hspace := applyLabel_space (s := (r.applyCreation host file s).space) hlabel
    rw [labelled, hlabelled] at hspace
    rw [apply, hspace]
    exact hlisting

/-- Requests that are apart, with names that are free and different, all get their labels. -/
theorem applyAll_listing (hs : s.Arranged) (hapart : l.Pairwise Apart) (hnodup : ((wanted l).map (·.2)).Nodup)
    (hfree : ∀ p ∈ wanted l, ¬ s.labels.Taken p.2) :
    (applyAll host file s l).space.labels.listing.Perm
      ((wanted l).map ((applyAll host file s l).space.labelAt .register) ++ s.labels.listing) := by
  induction l generalizing s with
  | nil => exact .refl _
  | cons r rest ih =>
    obtain ⟨hr, hrest⟩ := List.pairwise_cons.1 hapart
    have hwanted : wanted (r :: rest) = r.label?.toList ++ wanted rest := by
      rw [wanted, List.filterMap_cons]
      cases r.label? <;> rfl
    rw [hwanted] at hnodup hfree ⊢
    rw [List.map_append] at hnodup
    obtain ⟨-, hnames, hdisjoint⟩ := List.nodup_append.1 hnodup
    have hs' : (r.apply host file s).space.Arranged := (r.apply_changes s).arranged hs
    have hhead := @apply_listing host file s r fun p hp =>
      hfree p (List.mem_append_left _ (Option.mem_toList.2 hp))
    have hothers : ∀ p ∈ wanted rest, ¬ (r.apply host file s).space.labels.Taken p.2 := by
      intro p hp
      rw [LabelTable.not_taken_iff, apply_binding fun p' hp' => ?_, ← LabelTable.not_taken_iff]
      · exact hfree p (List.mem_append_right _ hp)
      · exact hdisjoint _ (List.mem_map_of_mem (Option.mem_toList.2 hp')) _ (List.mem_map_of_mem hp)
    -- The requests behind the first one do not change what is mapped at its address.
    have hkept : r.label?.toList.map ((r.apply host file s).space.labelAt .register) =
        r.label?.toList.map ((applyAll host file s (r :: rest)).space.labelAt .register) := by
      refine List.map_congr_left fun p hp => ?_
      have hlabel := Option.mem_toList.1 hp
      have hc := @applyAll_changes host file rest (r.apply host file s).space
      have hspared := @applyAll_spares host file p.1 rest (fun q hq => hr q hq p.1 (typed_of_label hlabel))
        (r.apply host file s).space
      rw [labelAt, labelAt, applyAll, hspared.regionNameAt_eq hc.keeps (hc.arranged hs')]
    rw [hkept] at hhead
    refine (ih hs' hrest hnames hothers).trans ((hhead.append_left _).trans ?_)
    rw [List.map_append, ← List.append_assoc]
    exact List.perm_append_comm.append_right _

end Request

namespace Hardware

variable {b : Block} {entries : List LayoutEntry}

theorem wanted_layout (hnames : ∀ e ∈ entries.filterMap LayoutEntry.element?, isLabelName e.name = true) :
    wanted (entries.map LayoutEntry.request) =
      (entries.filterMap LayoutEntry.element?).map fun e => (e.address, e.name) := by
  induction entries with
  | nil => rfl
  | cons x rest ih =>
    have hsub := (List.sublist_cons_self x rest).filterMap LayoutEntry.element?
    have hrest := ih fun e he => hnames e (hsub.subset he)
    cases x with
    | filler e => exact hrest
    | register e =>
      have hname := hnames e List.mem_cons_self
      have hne : e.name ≠ "" := by
        intro hempty
        rw [hempty] at hname
        exact absurd hname (by decide)
      have hlabel : (LayoutEntry.register e).request.label? = some (e.address, e.name) := by
        simp [LayoutEntry.request, Request.label?, DataRequest.label?, Option.filter, hne]
      rw [List.map_cons, wanted, List.filterMap_cons_some hlabel]
      exact congrArg _ hrest

end Hardware

end PsxExe
