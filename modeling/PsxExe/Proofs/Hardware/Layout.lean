import PsxExe.MemoryMap.Build

/-!
# Layouts of register blocks

The entries of a layout tile the range of their block: the first one starts where the block starts, each
of the others where the one in front stops, and the last one stops with the block. So they start at
different addresses, all of them in the block. The blocks of the console do not reach into each other.
-/

namespace PsxExe.Hardware

theorem exists_of_bind_eq_ok {ε α β : Type} {x : Except ε α} {f : α → Except ε β} {b : β}
    (h : x >>= f = .ok b) : ∃ a, x = .ok a ∧ f a = .ok b := by
  cases x with
  | error e => cases h
  | ok a => exact ⟨a, rfl, h⟩

variable {b : Block} {start mid stop : Int} {entries : List LayoutEntry} {elements : List Element}
  {format : Text.Format}

def LayoutEntry.extent : LayoutEntry → Extent
  | register e => e.extent
  | filler e => e

/-- The entries cover a range, one behind the other, and each covers some of it. -/
def Tiles (start stop : Int) : List LayoutEntry → Prop
  | [] => start = stop
  | x :: rest => x.extent.address = start ∧ start < x.extent.stop ∧ Tiles x.extent.stop stop rest

theorem Tiles.gap_append (h : Tiles mid stop entries) (hle : start ≤ mid) :
    Tiles start stop (gap start mid ++ entries) := by
  rw [gap]
  by_cases hlt : start < mid
  · rw [if_pos hlt]
    have hmid : start + (mid - start) = mid := by omega
    refine ⟨rfl, ?_, ?_⟩
    · change start < start + (mid - start)
      omega
    · change Tiles (start + (mid - start)) stop entries
      rw [hmid]
      exact h
  · rw [if_neg hlt]
    obtain rfl : start = mid := by omega
    exact h

theorem Tiles.start_le (h : Tiles start stop entries) : start ≤ stop := by
  induction entries generalizing start with
  | nil => exact Int.le_of_eq h
  | cons x rest ih =>
    obtain ⟨-, hlt, hrest⟩ := h
    exact Int.le_trans (Int.le_of_lt hlt) (ih hrest)

theorem Tiles.address_mem (h : Tiles start stop entries) :
    ∀ x ∈ entries, start ≤ x.extent.address ∧ x.extent.address < stop := by
  induction entries generalizing start with
  | nil =>
    intro x hx
    cases hx
  | cons y rest ih =>
    obtain ⟨hstart, hlt, hrest⟩ := h
    intro x hx
    rcases List.mem_cons.1 hx with rfl | hx
    · have hle := hrest.start_le
      omega
    · have hbounds := ih hrest x hx
      omega

theorem Tiles.stop_le (h : Tiles start stop entries) : ∀ x ∈ entries, x.extent.stop ≤ stop := by
  induction entries generalizing start with
  | nil =>
    intro x hx
    cases hx
  | cons y rest ih =>
    obtain ⟨-, -, hrest⟩ := h
    intro x hx
    rcases List.mem_cons.1 hx with rfl | hx
    · exact hrest.start_le
    · exact ih hrest x hx

theorem Tiles.ascending (h : Tiles start stop entries) :
    entries.Pairwise fun x y => x.extent.address < y.extent.address := by
  induction entries generalizing start with
  | nil => exact .nil
  | cons x rest ih =>
    obtain ⟨hstart, hlt, hrest⟩ := h
    refine List.pairwise_cons.2 ⟨fun y hy => ?_, ih hrest⟩
    have hbounds := hrest.address_mem y hy
    omega

theorem Tiles.exists_covering (h : Tiles start stop entries) {a : Int} (hfrom : start ≤ a) (hto : a < stop) :
    ∃ x ∈ entries, a ∈ x.extent ∧ ∀ y ∈ entries, a ∈ y.extent → y = x := by
  induction entries generalizing start with
  | nil =>
    obtain rfl : start = stop := h
    omega
  | cons x rest ih =>
    obtain ⟨rfl, -, hrest⟩ := h
    by_cases hfirst : a < x.extent.stop
    · refine ⟨x, List.mem_cons_self, ⟨hfrom, hfirst⟩, fun y hy hin => ?_⟩
      rcases List.mem_cons.1 hy with rfl | hy
      · rfl
      · have hbounds := hrest.address_mem y hy
        have hle := hin.1
        omega
    · obtain ⟨y, hy, hin, honly⟩ := ih hrest (Int.not_lt.1 hfirst)
      refine ⟨y, List.mem_cons_of_mem _ hy, hin, fun z hz hza => ?_⟩
      rcases List.mem_cons.1 hz with rfl | hz
      · exact absurd hza.2 hfirst
      · exact honly z hz hza

/-! ### What a layout is made of -/

theorem Block.tileFrom_nil_iff :
    b.tileFrom start [] = .ok entries ↔ start ≤ b.extent.stop ∧ entries = gap start b.extent.stop := by
  rw [tileFrom]
  by_cases hpast : b.extent.stop < start
  · rw [if_pos hpast]
    exact ⟨fun h => (by cases h), fun h => absurd h.1 (Int.not_le.2 hpast)⟩
  · rw [if_neg hpast, Except.ok.injEq, eq_comm]
    exact (and_iff_right (Int.not_lt.1 hpast)).symm

theorem Block.tileFrom_cons_iff {e : Element} :
    b.tileFrom start (e :: elements) = .ok entries ↔ start ≤ e.address ∧
      ∃ others, b.tileFrom e.extent.stop elements = .ok others ∧
        entries = gap start e.address ++ .register e :: others := by
  rw [tileFrom]
  by_cases hoverlap : e.address < start
  · rw [if_pos hoverlap]
    exact ⟨fun h => (by cases h), fun h => absurd h.1 (Int.not_le.2 hoverlap)⟩
  · rw [if_neg hoverlap]
    constructor
    · intro h
      obtain ⟨others, hothers, h⟩ := exists_of_bind_eq_ok h
      exact ⟨Int.not_lt.1 hoverlap, others, hothers, (Except.ok.inj h).symm⟩
    · rintro ⟨-, others, hothers, rfl⟩
      rw [hothers]
      rfl

theorem Block.tileFrom_tiles (h : b.tileFrom start elements = .ok entries)
    (hsize : ∀ e ∈ elements, 0 < e.extent.size) : Tiles start b.extent.stop entries := by
  induction elements generalizing start entries with
  | nil =>
    obtain ⟨hle, rfl⟩ := tileFrom_nil_iff.1 h
    have hdone : Tiles b.extent.stop b.extent.stop [] := rfl
    rw [← List.append_nil (gap start b.extent.stop)]
    exact hdone.gap_append hle
  | cons e rest ih =>
    obtain ⟨hle, others, hrest, rfl⟩ := tileFrom_cons_iff.1 h
    have hothers := ih hrest fun e he => hsize e (List.mem_cons_of_mem _ he)
    have hpos := hsize e List.mem_cons_self
    have hhead : Tiles e.address b.extent.stop (.register e :: others) := by
      refine ⟨rfl, ?_, hothers⟩
      change e.address < e.address + e.extent.size
      omega
    exact hhead.gap_append hle

def LayoutEntry.element? : LayoutEntry → Option Element
  | register e => some e
  | filler _ => none

theorem filterMap_gap (start stop : Int) : (gap start stop).filterMap LayoutEntry.element? = [] := by
  rw [gap]
  split
  · rfl
  · rfl

theorem Block.tileFrom_elements (h : b.tileFrom start elements = .ok entries) :
    entries.filterMap LayoutEntry.element? = elements := by
  induction elements generalizing start entries with
  | nil =>
    obtain ⟨-, rfl⟩ := tileFrom_nil_iff.1 h
    exact filterMap_gap ..
  | cons e rest ih =>
    obtain ⟨-, others, hrest, rfl⟩ := tileFrom_cons_iff.1 h
    rw [List.filterMap_append, filterMap_gap, List.nil_append]
    show e :: others.filterMap LayoutEntry.element? = e :: rest
    rw [ih hrest]

theorem Block.layout_elements (h : b.layout format = .ok entries) :
    b.elements format = .ok (entries.filterMap LayoutEntry.element?) := by
  rw [layout] at h
  cases helements : b.elements format with
  | error cause =>
    rw [helements] at h
    cases h
  | ok elements =>
    rw [helements] at h
    rw [tileFrom_elements h]

/-! ### The elements of a block -/

theorem exists_of_mem_mapM {ε α β : Type} {f : α → Except ε β} {l : List α} {l' : List β}
    (h : l.mapM f = .ok l') {y : β} (hy : y ∈ l') : ∃ x ∈ l, f x = .ok y := by
  induction l generalizing l' with
  | nil =>
    obtain rfl := Except.ok.inj h
    cases hy
  | cons x rest ih =>
    rw [List.mapM_cons] at h
    obtain ⟨z, hz, h⟩ := exists_of_bind_eq_ok h
    obtain ⟨others, hothers, h⟩ := exists_of_bind_eq_ok h
    obtain rfl := Except.ok.inj h
    rcases List.mem_cons.1 hy with rfl | hy
    · exact ⟨x, List.mem_cons_self, hz⟩
    · obtain ⟨w, hw, hfw⟩ := ih hothers hy
      exact ⟨w, List.mem_cons_of_mem _ hw, hfw⟩

theorem mapM_eq_ok {ε α β : Type} {f : α → Except ε β} {g : α → β} {l : List α}
    (h : ∀ x ∈ l, f x = .ok (g x)) : l.mapM f = .ok (l.map g) := by
  induction l with
  | nil => rfl
  | cons x rest ih =>
    rw [List.mapM_cons, h x List.mem_cons_self, ih fun y hy => h y (List.mem_cons_of_mem _ hy)]
    rfl

theorem Bank.width_of_mem {k : Bank} (h : k.elements format = .ok elements) {e : Element} (he : e ∈ elements) :
    e.width = k.width := by
  obtain ⟨index, -, hindex⟩ := exists_of_mem_mapM h he
  obtain ⟨name, -, hindex⟩ := exists_of_bind_eq_ok hindex
  obtain rfl := Except.ok.inj hindex
  rfl

theorem Block.width_of_mem (h : b.elements format = .ok elements) {e : Element} (he : e ∈ elements) :
    ∃ k ∈ b.banks, e.width = k.width := by
  rw [Block.elements, bankElements] at h
  cases hbanks : b.banks.mapM fun k => k.elements format with
  | error cause =>
    rw [hbanks] at h
    cases h
  | ok lists =>
    rw [hbanks] at h
    obtain rfl := Except.ok.inj h
    obtain ⟨l, hl, hmem⟩ := List.mem_flatten.1 (mem_sortBy.1 he)
    obtain ⟨k, hk, hkl⟩ := exists_of_mem_mapM hbanks hl
    exact ⟨k, hk, Bank.width_of_mem hkl hmem⟩

theorem Block.layout_tiles (h : b.layout format = .ok entries) (hsize : ∀ k ∈ b.banks, 0 < byteCount k.width) :
    Tiles b.extent.address b.extent.stop entries := by
  rw [layout] at h
  cases helements : b.elements format with
  | error cause =>
    rw [helements] at h
    cases h
  | ok elements =>
    rw [helements] at h
    apply tileFrom_tiles h
    intro e he
    obtain ⟨k, hk, hwidth⟩ := Block.width_of_mem helements he
    change 0 < byteCount e.width
    rw [hwidth]
    exact hsize k hk

theorem Block.positive_widths (hwidths : ∀ k ∈ b.banks, k.width ∈ [8, 16, 32]) :
    ∀ k ∈ b.banks, 0 < byteCount k.width := by
  have hlegal : ∀ w ∈ [(8 : Int), 16, 32], 0 < byteCount w := by decide
  exact fun k hk => hlegal _ (hwidths k hk)

/-! ### The console's blocks -/

theorem catalog_widths : ∀ b ∈ catalog, ∀ k ∈ b.banks, k.width ∈ [8, 16, 32] := by decide

theorem catalog_layout : ∀ b ∈ catalog, ∃ entries, b.layout = .ok entries := by
  have hlayout : ∀ b ∈ catalog, b.layout.isOk := by decide +kernel
  intro b hb
  cases hentries : b.layout with
  | ok entries => exact ⟨entries, rfl⟩
  | error cause =>
    have hok := hlayout b hb
    rw [hentries] at hok
    exact absurd hok Bool.false_ne_true

/-- The requests for a block; none if it has no layout. -/
def Block.mapped (b : Block) : List Request := b.requests.toOption.getD []

theorem catalog_requests : ∀ b ∈ catalog, b.requests = .ok b.mapped := by
  intro b hb
  obtain ⟨entries, hentries⟩ := catalog_layout b hb
  rw [Block.mapped, Block.requests, hentries]
  rfl

/-- All blocks of the console have a layout, so they end no load. -/
theorem hardwareRequests?_eq : hardwareRequests? = .ok (catalog.flatMap Block.mapped) := by
  rw [hardwareRequests?, mapM_eq_ok catalog_requests]
  rfl

theorem hardwareRequests_eq : hardwareRequests = catalog.flatMap Block.mapped := by
  rw [hardwareRequests, hardwareRequests?_eq]
  rfl

theorem catalog_apart : catalog.Pairwise fun b c => ¬ b.extent.Overlaps c.extent := by decide

theorem catalog_tiles {b : Block} (hb : b ∈ catalog) (h : b.layout = .ok entries) :
    Tiles b.extent.address b.extent.stop entries :=
  b.layout_tiles h (Block.positive_widths (catalog_widths b hb))

end PsxExe.Hardware
