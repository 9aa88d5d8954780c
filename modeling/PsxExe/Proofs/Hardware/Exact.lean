import Mathlib.Data.List.Chain
import PsxExe.MemoryMap.Build
import PsxExe.Proofs.Hardware.Names

/-!
# Layouts are exact

A block has a layout if and only if its registers lie in it and no byte belongs to two of them. One pass over the
registers by address finds this out: the cursor stops where the last register in front of it does, so the first
register that starts before the cursor reaches into that one. What a layout adds to the registers are fillers, one
for each gap.
-/

namespace PsxExe.Hardware

variable {b : Block} {e : Element} {elements : List Element} {entries : List LayoutEntry} {cursor start stop : Int}
  {format : Text.Format}

/-! ### Registers in a row -/

/-- The elements follow each other between two addresses. -/
def InRow (start stop : Int) : List Element → Prop
  | [] => start ≤ stop
  | e :: rest => start ≤ e.address ∧ InRow e.extent.stop stop rest

theorem Block.tileFrom_eq_ok_iff :
    (∃ entries, b.tileFrom cursor elements = .ok entries) ↔ InRow cursor b.extent.stop elements := by
  induction elements generalizing cursor with
  | nil => simp only [tileFrom_nil_iff, exists_and_left, exists_eq, and_true, InRow]
  | cons e rest ih =>
    rw [InRow, ← ih]
    constructor
    · rintro ⟨entries, h⟩
      obtain ⟨hle, others, hothers, -⟩ := tileFrom_cons_iff.1 h
      exact ⟨hle, others, hothers⟩
    · rintro ⟨hle, others, hothers⟩
      exact ⟨_, tileFrom_cons_iff.2 ⟨hle, others, hothers, rfl⟩⟩

theorem Block.tileFrom_ne_template {fault : Text.TemplateError} : b.tileFrom cursor elements ≠ .error (.template fault) := by
  induction elements generalizing cursor with
  | nil =>
    rw [tileFrom]
    split <;> simp
  | cons e rest ih =>
    rw [tileFrom]
    split
    · simp
    · cases hrest : b.tileFrom e.extent.stop rest with
      | ok others => exact fun h => by cases h
      | error cause =>
        rintro h
        obtain rfl := Except.error.inj h
        exact ih hrest

/-- The registers lie in the block, and no byte belongs to two of them. -/
structure Block.Fits (b : Block) (elements : List Element) : Prop where
  inside : ∀ e ∈ elements, b.extent.address ≤ e.address ∧ e.extent.stop ≤ b.extent.stop
  apart : elements.Pairwise fun e f => ∀ a ∈ e.extent, a ∉ f.extent

theorem Element.stop_eq (e : Element) : e.extent.stop = e.address + e.extent.size := rfl

theorem InRow.start_le (h : InRow start stop elements) (hsize : ∀ e ∈ elements, 0 < e.extent.size) : start ≤ stop := by
  induction elements generalizing start with
  | nil => exact h
  | cons e rest ih =>
    obtain ⟨hstart, hrest⟩ := h
    have hpos := hsize e List.mem_cons_self
    have hle := ih hrest fun f hf => hsize f (List.mem_cons_of_mem _ hf)
    have hstop := e.stop_eq
    omega

/-- Elements in ascending order are in a row if and only if they lie between the two addresses and share no byte. -/
theorem inRow_iff (hsorted : elements.Pairwise fun e f => e.address ≤ f.address)
    (hsize : ∀ e ∈ elements, 0 < e.extent.size) (hle : start ≤ stop) :
    InRow start stop elements ↔
      (∀ e ∈ elements, start ≤ e.address ∧ e.extent.stop ≤ stop) ∧
        elements.Pairwise fun e f => ∀ a ∈ e.extent, a ∉ f.extent := by
  induction elements generalizing start with
  | nil => exact ⟨fun _ => ⟨fun e he => (List.not_mem_nil he).elim, .nil⟩, fun _ => hle⟩
  | cons e rest ih =>
    obtain ⟨hfirst, hsorted⟩ := List.pairwise_cons.1 hsorted
    obtain ⟨hpos, hsize⟩ := List.forall_mem_cons.1 hsize
    have hstop := e.stop_eq
    constructor
    · rintro ⟨hstart, hrest⟩
      have hend := hrest.start_le hsize
      obtain ⟨hinside, hapart⟩ := (ih hsorted hsize hend).1 hrest
      refine ⟨List.forall_mem_cons.2 ⟨⟨hstart, hend⟩, fun f hf => ?_⟩, List.pairwise_cons.2 ⟨fun f hf a ha hin => ?_, hapart⟩⟩
      · have hbounds := hinside f hf
        omega
      · have hbounds := hinside f hf
        have hbelow : a < e.extent.stop := ha.2
        have habove : f.address ≤ a := hin.1
        omega
    · rintro ⟨hinside, hapart⟩
      obtain ⟨⟨hstart, hend⟩, hinside⟩ := List.forall_mem_cons.1 hinside
      obtain ⟨hfirstApart, hapart⟩ := List.pairwise_cons.1 hapart
      refine ⟨hstart, (ih hsorted hsize hend).2 ⟨fun f hf => ⟨?_, (hinside f hf).2⟩, hapart⟩⟩
      -- The next element starts behind this one, or its first byte would belong to both.
      by_contra hbefore
      have hfrom := hfirst f hf
      have hfsize := hsize f hf
      have hfstop := f.stop_eq
      exact hfirstApart f hf f.address ⟨hfrom, Int.not_le.1 hbefore⟩ ⟨Int.le_refl _, by omega⟩

/-! ### The entries of a layout -/

/-- An entry as typed data: its address, its width in bits and count, and its name if it is a register. -/
def LayoutEntry.row : LayoutEntry → DataRequest
  | register e => ⟨e.address, e.width, 1, some e.name⟩
  | filler e => ⟨e.address, 8, e.size, none⟩

/-- Typed data that covers a range, one behind the other. -/
def Contiguous (start stop : Int) : List DataRequest → Prop
  | [] => start = stop
  | d :: rest => d.address = start ∧ Contiguous (start + byteCount d.width * d.count) stop rest

/-- What a layout is for the elements of its block: its rows cover the block, the named ones are the elements
in their order, and the others are single fillers that are not empty. -/
structure Block.LaidOut (b : Block) (elements : List Element) (rows : List DataRequest) : Prop where
  contiguous : Contiguous b.extent.address b.extent.stop rows
  empty_iff : rows = [] ↔ b.extent.size = 0
  named : rows.filter (·.name.isSome) = elements.map fun e => ⟨e.address, e.width, 1, some e.name⟩
  fillers : ∀ d ∈ rows, d.name = none → d.width = 8 ∧ 0 < d.count
  separate : rows.IsChain fun d d' => d.name = none → d'.name ≠ none

theorem LayoutEntry.stop_row (x : LayoutEntry) :
    x.extent.stop = x.extent.address + byteCount x.row.width * x.row.count := by
  cases x with
  | register e =>
    rw [row, Int.mul_one]
    rfl
  | filler e =>
    show e.stop = e.address + 1 * e.size
    rw [Int.one_mul]
    rfl

theorem Tiles.contiguous (h : Tiles start stop entries) : Contiguous start stop (entries.map LayoutEntry.row) := by
  induction entries generalizing start with
  | nil => exact h
  | cons x rest ih =>
    obtain ⟨hstart, -, hrest⟩ := h
    rw [x.stop_row, hstart] at hrest
    refine ⟨?_, ih hrest⟩
    rw [← hstart]
    cases x <;> rfl

theorem Tiles.fillers (h : Tiles start stop entries) :
    ∀ d ∈ entries.map LayoutEntry.row, d.name = none → d.width = 8 ∧ 0 < d.count := by
  induction entries generalizing start with
  | nil => exact fun d hd => (List.not_mem_nil hd).elim
  | cons x rest ih =>
    obtain ⟨hstart, hlt, hrest⟩ := h
    rw [List.map_cons, List.forall_mem_cons]
    refine ⟨fun hname => ?_, ih hrest⟩
    cases x with
    | register e => cases hname
    | filler e =>
      change e.address = start at hstart
      change start < e.address + e.size at hlt
      have hpos : 0 < e.size := by omega
      exact ⟨rfl, hpos⟩

theorem filter_row (entries : List LayoutEntry) :
    (entries.map LayoutEntry.row).filter (·.name.isSome) =
      (entries.filterMap LayoutEntry.element?).map fun e => ⟨e.address, e.width, 1, some e.name⟩ := by
  induction entries with
  | nil => rfl
  | cons x rest ih =>
    cases x with
    | register e => exact congrArg _ ih
    | filler e => exact ih

theorem Block.tileFrom_separate (h : b.tileFrom cursor elements = .ok entries) :
    (entries.map LayoutEntry.row).IsChain fun d d' => d.name = none → d'.name ≠ none := by
  induction elements generalizing cursor entries with
  | nil =>
    obtain ⟨-, rfl⟩ := tileFrom_nil_iff.1 h
    rw [gap]
    split
    · exact .singleton _
    · exact .nil
  | cons e rest ih =>
    obtain ⟨-, others, hothers, rfl⟩ := tileFrom_cons_iff.1 h
    have hregister : ((LayoutEntry.register e :: others).map LayoutEntry.row).IsChain
        fun d d' => d.name = none → d'.name ≠ none := by
      rw [List.map_cons, List.isChain_cons]
      exact ⟨fun _ _ hnone => (by cases hnone), ih hothers⟩
    rw [gap]
    split
    · exact .cons_cons (fun _ => Option.some_ne_none _) hregister
    · exact hregister

/-! ### The elements of a block -/

variable {k : Bank}

/-- The name of the bank can be filled in for each of its registers. -/
def Bank.WellNamed (k : Bank) (format : Text.Format) : Prop :=
  ∀ i < k.count.toNat, ∃ n, k.elementName i format = .ok n

/-- The registers of a bank, one stride apart. -/
def Bank.registers (k : Bank) (format : Text.Format) : List Element :=
  (List.range k.count.toNat).map fun i =>
    ⟨(k.elementName i format).toOption.getD "", k.address + i * k.stride, k.width⟩

theorem Bank.elements_of_wellNamed (h : k.WellNamed format) : k.elements format = .ok (k.registers format) := by
  refine mapM_eq_ok fun i hi => ?_
  obtain ⟨n, hn⟩ := h i (List.mem_range.1 hi)
  rw [element, hn]
  rfl

theorem Block.elements_of_wellNamed (h : ∀ k ∈ b.banks, k.WellNamed format) :
    ∃ elements, b.elements format = .ok elements ∧ elements.Perm (b.banks.flatMap fun k => k.registers format) ∧
      elements.Pairwise fun e f => e.address ≤ f.address := by
  have hall : b.bankElements format = .ok (b.banks.flatMap fun k => k.registers format) := by
    rw [bankElements, mapM_eq_ok fun k hk => Bank.elements_of_wellNamed (h k hk)]
    rfl
  refine ⟨_, ?_, sortBy_perm (fun e f => decide (e.address ≤ f.address)) _, ?_⟩
  · rw [Block.elements, hall]
    rfl
  · refine (sortBy_pairwise (fun e f g hef hfg => ?_) (fun e f => ?_) _).imp of_decide_eq_true
    · exact decide_eq_true (Int.le_trans (of_decide_eq_true hef) (of_decide_eq_true hfg))
    · rw [decide_eq_true_eq, decide_eq_true_eq]
      exact Int.le_total ..

theorem Block.size_pos (hwidths : ∀ k ∈ b.banks, k.width ∈ [8, 16, 32]) (helements : b.elements format = .ok elements) :
    ∀ e ∈ elements, 0 < e.extent.size := by
  intro e he
  obtain ⟨k, hk, hwidth⟩ := Block.width_of_mem helements he
  show 0 < byteCount e.width
  rw [hwidth]
  exact Block.positive_widths hwidths k hk

theorem Block.laidOut (hwidths : ∀ k ∈ b.banks, k.width ∈ [8, 16, 32])
    (helements : b.elements format = .ok elements) (h : b.layout format = .ok entries) : b.LaidOut elements (entries.map LayoutEntry.row) := by
  have htiles := b.layout_tiles h (Block.positive_widths hwidths)
  have hstop := b.extent.stop_eq
  refine ⟨htiles.contiguous, ?_, ?_, htiles.fillers, ?_⟩
  · rw [List.map_eq_nil_iff]
    cases entries with
    | nil =>
      have hend : b.extent.address = b.extent.stop := htiles
      exact ⟨fun _ => by omega, fun _ => rfl⟩
    | cons x rest =>
      have hbounds := htiles.address_mem x List.mem_cons_self
      refine ⟨fun hnil => (List.cons_ne_nil _ _ hnil).elim, fun hzero => ?_⟩
      omega
  · obtain rfl := Except.ok.inj (helements.symm.trans (Block.layout_elements h))
    exact filter_row entries
  · rw [layout, helements] at h
    exact b.tileFrom_separate h

/-- However indices are filled into names, the elements of a block with legal widths, and with bank names that can be
filled in, are those of its banks in ascending order. A layout is refused, with a complaint about the block, if and
only if some byte belongs to two of them or one of them does not lie in the block. Otherwise it covers the block with
the elements, one behind the other, and single fillers between them. -/
theorem Block.layout_exact (b : Block) (format : Text.Format) (hsize : 0 ≤ b.extent.size)
    (hwidths : ∀ k ∈ b.banks, k.width ∈ [8, 16, 32]) (hnames : ∀ k ∈ b.banks, k.WellNamed format) :
    ∃ elements, b.elements format = .ok elements ∧
      elements.Perm (b.banks.flatMap fun k => k.registers format) ∧
      elements.Pairwise (fun e f => e.address ≤ f.address) ∧
      match b.layout format with
      | .error cause => ¬ b.Fits elements ∧ ∀ fault, cause ≠ .template fault
      | .ok entries => b.Fits elements ∧ b.LaidOut elements (entries.map LayoutEntry.row) := by
  obtain ⟨elements, helements, hperm, hsorted⟩ := Block.elements_of_wellNamed hnames
  refine ⟨elements, helements, hperm, hsorted, ?_⟩
  have hstop := b.extent.stop_eq
  have hlayout : b.layout format = b.tileFrom b.extent.address elements := by
    rw [layout, helements]
  have hfits : (∃ entries, b.layout format = .ok entries) ↔ b.Fits elements := by
    rw [hlayout, tileFrom_eq_ok_iff, inRow_iff hsorted (Block.size_pos hwidths helements) (by omega)]
    exact ⟨fun h => ⟨h.1, h.2⟩, fun h => ⟨h.inside, h.apart⟩⟩
  cases h : b.layout format with
  | error cause =>
    rw [h] at hfits
    refine ⟨fun hall => ?_, ?_⟩
    · obtain ⟨entries, hentries⟩ := hfits.2 hall
      cases hentries
    · rintro fault rfl
      exact b.tileFrom_ne_template (hlayout.symm.trans h)
  | ok entries => exact ⟨hfits.1 ⟨entries, h⟩, Block.laidOut hwidths helements h⟩

/-- A bank that another register lies in the middle of, and a bank that runs downwards. -/
def interleaved : Block :=
  ⟨"PROBE", ⟨0x2000, 0x10⟩,
    [⟨"CH\x7b\x7d_VAL", 0x2004, 16, 2, 8⟩, ⟨"CTRL", 0x2008, 32, 1, 0⟩, ⟨"IN\x7b\x7d", 0x2001, 8, 2, -1⟩]⟩

theorem interleaved_exact :
    0 ≤ interleaved.extent.size ∧ (∀ k ∈ interleaved.banks, k.width ∈ [8, 16, 32]) ∧
      (∀ k ∈ interleaved.banks, k.WellNamed Text.fillTemplate) ∧
      ∃ entries, interleaved.layout = .ok entries ∧
        interleaved.LaidOut [⟨"IN1", 0x2000, 8⟩, ⟨"IN0", 0x2001, 8⟩, ⟨"CH0_VAL", 0x2004, 16⟩,
          ⟨"CTRL", 0x2008, 32⟩, ⟨"CH1_VAL", 0x200C, 16⟩] (entries.map LayoutEntry.row) := by
  have hsize : 0 ≤ interleaved.extent.size := by decide
  have hwidths : ∀ k ∈ interleaved.banks, k.width ∈ [8, 16, 32] := by decide
  have hnames : ∀ k ∈ interleaved.banks, k.WellNamed Text.fillTemplate := by
    have hfilled : ∀ k ∈ interleaved.banks, ∀ i < k.count.toNat, (k.elementName i).isOk := by decide +kernel
    intro k hk i hi
    cases hname : k.elementName i with
    | ok n => exact ⟨n, rfl⟩
    | error fault =>
      have hok := hfilled k hk i hi
      rw [hname] at hok
      cases hok
  have hknown : interleaved.elements = .ok [⟨"IN1", 0x2000, 8⟩, ⟨"IN0", 0x2001, 8⟩, ⟨"CH0_VAL", 0x2004, 16⟩,
      ⟨"CTRL", 0x2008, 32⟩, ⟨"CH1_VAL", 0x200C, 16⟩] := by decide +kernel
  have hok : interleaved.layout.isOk := by decide +kernel
  obtain ⟨_, helements, -, -, hlayout⟩ := Block.layout_exact interleaved Text.fillTemplate hsize hwidths hnames
  obtain rfl := Except.ok.inj (hknown.symm.trans helements)
  refine ⟨hsize, hwidths, hnames, ?_⟩
  cases hentries : interleaved.layout with
  | error cause =>
    rw [hentries] at hok
    cases hok
  | ok entries =>
    rw [hentries] at hlayout
    exact ⟨entries, rfl, hlayout.2⟩

end PsxExe.Hardware
