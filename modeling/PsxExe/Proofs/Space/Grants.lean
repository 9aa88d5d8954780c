import PsxExe.Proofs.Space.Change

/-!
# What stays refused

A range that cannot be mapped can never be mapped: what is mapped stays, and the machine always grants
the same sizes. For a mirror this takes an argument. It can be refused because nothing is mapped at the
address that it should repeat, and a region may be mapped there later. But if the repeated range itself
could not be mapped, such a region ends too early for the mirror.
-/

namespace PsxExe.AddressSpace

variable {host : Host} {s t : AddressSpace} {r : Region} {e : Extent} {name : String} {base : Int}

/-- A region on the range would be mapped. -/
structure Grants (host : Host) (s : AddressSpace) (e : Extent) : Prop where
  admits : s.Admits e
  size_le : e.size ≤ host.allocationLimit

/-- All regions have sizes that the machine grants. -/
def Granted (host : Host) (s : AddressSpace) : Prop := ∀ r ∈ s.regions, r.size ≤ host.allocationLimit

theorem granted_empty : Granted host ∅ := fun _ hr => (List.not_mem_nil hr).elim

theorem Admits.of_keeps (h : t.Admits e) (hk : Keeps s t) : s.Admits e :=
  ⟨h.nonempty, h.inside, fun r hr => h.unmapped r (hk.regions.subset hr)⟩

theorem Grants.of_keeps (h : t.Grants host e) (hk : Keeps s t) : s.Grants host e :=
  ⟨h.admits.of_keeps hk, h.size_le⟩

theorem createRegion_error_iff {permissions : Permissions} {bytes : Option Bytes} :
    (∃ cause, s.createRegion host name e permissions bytes = .error cause) ↔ ¬ s.Grants host e := by
  cases hcreate : s.createRegion host name e permissions bytes with
  | error cause =>
    refine ⟨fun _ hgrants => ?_, fun _ => ⟨cause, rfl⟩⟩
    have hok := (@createRegion_eq_ok_iff s _ _ host name e permissions bytes).2
      ⟨hgrants.admits, hgrants.size_le, rfl, rfl⟩
    rw [hcreate] at hok
    cases hok
  | ok created =>
    obtain ⟨r, t⟩ := created
    obtain ⟨hadmits, hsize, -⟩ := createRegion_eq_ok_iff.1 hcreate
    refine ⟨fun hrefused => ?_, fun hno => absurd ⟨hadmits, hsize⟩ hno⟩
    obtain ⟨_, hcause⟩ := hrefused
    cases hcause

theorem createRegion_not_grants {permissions : Permissions} {bytes : Option Bytes}
    (h : s.createRegion host name e permissions bytes = .ok (r, t)) : ¬ t.Grants host e := by
  intro hgrants
  obtain ⟨-, -, rfl, rfl⟩ := createRegion_eq_ok_iff.1 h
  exact hgrants.admits.extent_ne (mem_insertRegion.2 (.inl rfl)) rfl

theorem createMirror_not_admits (h : s.createMirror name base e = .ok (r, t)) : ¬ t.Admits e := by
  intro hadmits
  obtain ⟨q, -, -, -, rfl, rfl⟩ := createMirror_eq_ok_iff.1 h
  exact hadmits.extent_ne (mem_insertRegion.2 (.inl rfl)) rfl

/-! ### Sizes -/

theorem Change.granted (h : Change host s t) (hs : s.Granted host) : t.Granted host := by
  rcases h.memory with ⟨_, e, _, _, q, h⟩ | ⟨_, base, e, q, h⟩ | ⟨_, _, h⟩ | h
  · obtain ⟨-, hsize, rfl, rfl⟩ := createRegion_eq_ok_iff.1 h
    intro r hr
    rcases mem_insertRegion.1 hr with rfl | hold
    · exact hsize
    · exact hs r hold
  · obtain ⟨b, hb, hwithin, -, rfl, rfl⟩ := createMirror_eq_ok_iff.1 h
    obtain ⟨hmem, hin⟩ := mem_of_regionAt hb
    have hsize := hs b hmem
    have hin := Region.mem_extent.1 hin
    have hstop := b.stop_eq
    intro r hr
    rcases mem_insertRegion.1 hr with rfl | hold
    · change e.size ≤ _
      omega
    · exact hs r hold
  · rw [Granted, (write_keeps h).2]
    exact hs
  · rw [Granted, h.regions]
    exact hs

theorem Changes.granted (h : Changes host s t) (hs : s.Granted host) : t.Granted host :=
  h.preserves (fun _ _ hchange hs => hchange.granted hs) hs

/-! ### Ranges that cannot be mapped -/

/-- If a range could not be mapped, then a region that holds its start later does not hold all of it: the
range reaches out of the addresses, is larger than any region, or runs into what was mapped. -/
theorem stop_lt_of_not_grants (hpos : 0 < e.size) (hno : ¬ s.Grants host e)
    (hfree : s.regionAt e.address = none) (hk : Keeps s t) (ht : t.Arranged) (hgranted : t.Granted host)
    (hr : t.regionAt e.address = some r) : r.stop < e.stop := by
  by_contra hcovers
  obtain ⟨hmem, hin⟩ := mem_of_regionAt hr
  have hstart := Region.mem_extent.1 hin
  obtain ⟨hfrom, hto⟩ := ht.inside r hmem
  have hsize := hgranted r hmem
  have hstop := r.stop_eq
  have hend := e.stop_eq
  change 0 ≤ r.address at hfrom
  change r.stop ≤ addressLimit at hto
  refine hno ⟨⟨hpos, ⟨by omega, by omega⟩, fun q hq hoverlaps => ?_⟩, by omega⟩
  obtain ⟨hbelow, habove⟩ := hoverlaps
  change e.address < q.stop at hbelow
  change q.address < e.stop at habove
  have hout : e.address ∉ q.extent := regionAt_eq_none_iff.1 hfree q hq
  rw [Region.mem_extent] at hout
  have hq' := hk.regions.subset hq
  have hpos' := ht.nonempty q hq'
  have hstop' := q.stop_eq
  -- The start of what is in the way lies in both regions, which are therefore one.
  have hsame : q = r := by
    apply ht.eq_of_mem hq' hmem (a := q.address)
    · exact Region.mem_extent.2 ⟨by omega, by omega⟩
    · exact Region.mem_extent.2 ⟨by omega, by omega⟩
  rw [hsame] at hout
  exact hout hstart

/-- A mirror that is refused while the range that it should repeat cannot be mapped is refused for good. -/
theorem createMirror_refused (hno : ¬ s.Grants host ⟨base, e.size⟩)
    (hrefused : ∃ cause, s.createMirror name base e = .error cause) (hk : Keeps s t) (ht : t.Arranged)
    (hgranted : t.Granted host) : ∃ cause, t.createMirror name base e = .error cause := by
  cases hcreate : t.createMirror name base e with
  | error cause => exact ⟨cause, rfl⟩
  | ok created =>
    obtain ⟨m, u⟩ := created
    obtain ⟨r, hr, hwithin, hadmits, -⟩ := createMirror_eq_ok_iff.1 hcreate
    exfalso
    cases hbase : s.regionAt base with
    | none =>
      have hshort : r.stop < base + e.size :=
        stop_lt_of_not_grants (e := ⟨base, e.size⟩) hadmits.nonempty hno hbase hk ht hgranted hr
      omega
    | some q =>
      have hsame := hk.regionAt ht hbase
      rw [hr, Option.some.injEq] at hsame
      rw [← hsame] at hbase
      have hok := (@createMirror_eq_ok_iff s _ _ name base e).2
        ⟨r, hbase, hwithin, hadmits.of_keeps hk, rfl, rfl⟩
      obtain ⟨cause, hcause⟩ := hrefused
      rw [hok] at hcause
      cases hcause

end PsxExe.AddressSpace
