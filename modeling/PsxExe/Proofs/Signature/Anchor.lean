import PsxExe.Signature.Anchor

/-!
# The anchor is the leftmost longest run

A run is a row of masks that look at every bit of their bytes. The pass over a pattern goes from the left, and what
it remembers describes all runs of what it has seen: how long a run can be that ends at the edge, and which one is
the leftmost of the longest. The next mask either lets every run at the edge grow by one place, or ends them all;
the runs further left stay as they are.
-/

namespace PsxExe.Pattern

variable {values masks : Bytes} {b : UInt8} {p : Pattern} {a : Anchor} {s : RunScan} {start length : Nat}

/-! ### Runs -/

/-- From an index on, so many masks in a row look at every bit. -/
def IsRun (masks : Bytes) (start length : Nat) : Prop := List.replicate length 0xFF <+: masks.drop start

theorem isRun_zero : IsRun masks start 0 := List.nil_prefix

theorem isRun_iff : IsRun masks start length ↔ ∀ j < length, masks[start + j]? = some 0xFF := by
  simp only [IsRun, List.prefix_iff_getElem?, List.length_replicate, List.getElem_replicate, List.getElem?_drop]

theorem IsRun.getElem? (h : IsRun masks start length) {j : Nat} (hj : j < length) :
    masks[start + j]? = some 0xFF := isRun_iff.1 h j hj

theorem IsRun.le_length (h : IsRun masks start length) : length ≤ masks.length - start := by
  have hle := h.length_le
  rwa [List.length_replicate, List.length_drop] at hle

theorem exists_isRun_of_mem (h : 0xFF ∈ masks) : ∃ start, IsRun masks start 1 := by
  obtain ⟨before, behind, rfl⟩ := List.append_of_mem h
  exact ⟨before.length, behind, by simp⟩

theorem isRun_append_of_le (h : start + length ≤ masks.length) :
    IsRun (masks ++ [b]) start length ↔ IsRun masks start length := by
  simp only [isRun_iff]
  refine forall_congr' fun j => imp_congr_right fun hj => ?_
  rw [List.getElem?_append_left (by omega)]

theorem isRun_append_succ (h : start + length = masks.length) :
    IsRun (masks ++ [b]) start (length + 1) ↔ IsRun masks start length ∧ b = 0xFF := by
  have hlast : (masks ++ [b])[start + length]? = some b := by rw [h, List.getElem?_concat_length]
  rw [← isRun_append_of_le (b := b) (Nat.le_of_eq h)]
  simp only [isRun_iff]
  constructor
  · intro hrun
    refine ⟨fun j hj => hrun j (Nat.lt_succ_of_lt hj), ?_⟩
    exact Option.some.inj (hlast.symm.trans (hrun length (Nat.lt_succ_self length)))
  · rintro ⟨hrun, rfl⟩ j hj
    rcases Nat.lt_succ_iff_lt_or_eq.1 hj with hj | rfl
    · exact hrun j hj
    · exact hlast

theorem IsRun.append_cases (h : IsRun (masks ++ [b]) start length) :
    IsRun masks start length ∨
      ∃ shorter, length = shorter + 1 ∧ start + shorter = masks.length ∧ IsRun masks start shorter ∧ b = 0xFF := by
  have hle := h.le_length
  rw [List.length_append, List.length_singleton] at hle
  cases length with
  | zero => exact .inl isRun_zero
  | succ shorter =>
    by_cases hedge : start + shorter = masks.length
    · exact .inr ⟨shorter, rfl, hedge, (isRun_append_succ hedge).1 h⟩
    · exact .inl ((isRun_append_of_le (by omega)).1 h)

/-! ### The pass from the left -/

/-- The pass knows the runs of the masks that it has seen. The start of the run that it is in has no meaning while
that run is empty, and the same holds of the best run. -/
structure RunScan.Measures (s : RunScan) (masks : Bytes) : Prop where
  atEdge : 0 < s.runLength → s.runStart + s.runLength = masks.length
  edge : ∀ start length, start + length = masks.length → (IsRun masks start length ↔ length ≤ s.runLength)
  best : IsRun masks s.start s.length
  longest : ∀ start length, IsRun masks start length → length ≤ s.length
  leftmost : 0 < s.length → ∀ start, IsRun masks start s.length → s.start ≤ start

theorem RunScan.measures_nil : RunScan.Measures ⟨0, 0, 0, 0⟩ [] where
  atEdge hpos := absurd hpos (Nat.lt_irrefl 0)
  edge start length hedge := by
    obtain ⟨-, rfl⟩ : start = 0 ∧ length = 0 := Nat.add_eq_zero_iff.1 hedge
    exact ⟨fun _ => Nat.le_refl 0, fun _ => isRun_zero⟩
  best := isRun_zero
  longest start length hrun := by simpa using hrun.le_length
  leftmost hpos := absurd hpos (Nat.lt_irrefl 0)

theorem RunScan.Measures.best_le (h : s.Measures masks) (hpos : 0 < s.length) : s.start + s.length ≤ masks.length := by
  have hle := h.best.le_length
  omega

theorem RunScan.Measures.edge_exact (h : s.Measures masks) {length : Nat}
    (hedge : start + length = (masks ++ [0xFF]).length) :
    IsRun (masks ++ [0xFF]) start length ↔ length ≤ s.runLength + 1 := by
  rw [List.length_append, List.length_singleton] at hedge
  cases length with
  | zero => exact ⟨fun _ => Nat.zero_le _, fun _ => isRun_zero⟩
  | succ shorter =>
    have hshorter : start + shorter = masks.length := by omega
    rw [isRun_append_succ hshorter, h.edge start shorter hshorter, Nat.succ_le_succ_iff, and_iff_left rfl]

/-- The best run stays the best if no run at the edge has become longer than it. -/
theorem RunScan.Measures.keep (h : s.Measures masks) {runStart runLength : Nat}
    (hplace : 0 < runLength → runStart + runLength = (masks ++ [b]).length)
    (hedge : ∀ start length, start + length = (masks ++ [b]).length →
      (IsRun (masks ++ [b]) start length ↔ length ≤ runLength))
    (hshort : runLength ≤ s.length) :
    RunScan.Measures { s with runStart, runLength } (masks ++ [b]) where
  atEdge := hplace
  edge := hedge
  best := by
    rcases Nat.eq_zero_or_pos s.length with hzero | hpos
    · show IsRun (masks ++ [b]) s.start s.length
      rw [hzero]
      exact isRun_zero
    · exact (isRun_append_of_le (h.best_le hpos)).2 h.best
  longest start length hrun := by
    rcases hrun.append_cases with hrun' | ⟨shorter, rfl, hstart, -⟩
    · exact h.longest start length hrun'
    · exact Nat.le_trans ((hedge start _ (by simp; omega)).1 hrun) hshort
  leftmost hpos start hrun := by
    rcases hrun.append_cases with hrun' | ⟨shorter, hlength, hstart, -⟩
    · exact h.leftmost hpos start hrun'
    · -- A run of this length at the edge starts no further left than one that lies in the masks seen before.
      have hle := h.best_le hpos
      change s.length = shorter + 1 at hlength
      show s.start ≤ start
      omega

theorem RunScan.Measures.step (h : s.Measures masks) (m : MaskedByte) :
    (s.step m masks.length).Measures (masks ++ [m.mask]) := by
  rw [RunScan.step]
  split
  next hexact =>
    have hmask : m.mask = 0xFF := by simpa [MaskedByte.isExact] using hexact
    rw [hmask]
    have hplace : (if s.runLength = 0 then masks.length else s.runStart) + (s.runLength + 1) =
        (masks ++ [0xFF]).length := by
      have hat := h.atEdge
      rw [List.length_append, List.length_singleton]
      split <;> omega
    have hedge : ∀ start length, start + length = (masks ++ [0xFF]).length →
        (IsRun (masks ++ [0xFF]) start length ↔ length ≤ s.runLength + 1) := fun _ _ => h.edge_exact
    dsimp only
    split
    next hlonger =>
      -- The run at the edge is now longer than all others, and it is the only one of its length.
      refine ⟨fun _ => hplace, hedge, (hedge _ _ hplace).2 (Nat.le_refl _), fun start length hrun => ?_,
        fun _ start hrun => ?_⟩
      · rcases hrun.append_cases with hrun' | ⟨shorter, rfl, hstart, -⟩
        · exact Nat.le_of_lt (Nat.lt_of_le_of_lt (h.longest start length hrun') hlonger)
        · exact (hedge start _ (by simp; omega)).1 hrun
      · rcases hrun.append_cases with hrun' | ⟨shorter, hlength, hstart, -⟩
        · exact absurd (h.longest start _ hrun') (Nat.not_le.2 hlonger)
        · rw [List.length_append, List.length_singleton] at hplace
          change s.runLength + 1 = shorter + 1 at hlength
          show (if s.runLength = 0 then masks.length else s.runStart) ≤ start
          omega
    next hshort => exact h.keep (fun _ => hplace) hedge (Nat.not_lt.1 hshort)
  next hexact =>
    have hmask : m.mask ≠ 0xFF := by simpa [MaskedByte.isExact] using hexact
    refine h.keep (fun hpos => absurd hpos (Nat.lt_irrefl 0)) (fun start length hedge => ?_) (Nat.zero_le _)
    rw [List.length_append, List.length_singleton] at hedge
    cases length with
    | zero => exact ⟨fun _ => Nat.le_refl 0, fun _ => isRun_zero⟩
    | succ shorter =>
      rw [isRun_append_succ (by omega)]
      exact ⟨fun hrun => absurd hrun.2 hmask, fun hle => absurd hle (Nat.not_succ_le_zero _)⟩

theorem RunScan.Measures.foldl {seen : Pattern} (h : s.Measures (seen.map (·.mask))) (rest : Pattern) :
    ((rest.zipIdx seen.length).foldl (fun s m => s.step m.1 m.2) s).Measures ((seen ++ rest).map (·.mask)) := by
  induction rest generalizing seen s with
  | nil => simpa using h
  | cons m rest ih =>
    have hstep := h.step m
    rw [List.length_map, ← List.map_singleton, ← List.map_append] at hstep
    have hrest := ih hstep
    rwa [List.length_append, List.length_singleton, List.append_assoc, List.singleton_append] at hrest

theorem runs_measures (p : Pattern) : p.runs.Measures (p.map (·.mask)) :=
  @RunScan.Measures.foldl _ [] RunScan.measures_nil p

/-! ### The anchor -/

theorem runs_length_le (p : Pattern) : p.runs.length ≤ p.length - p.runs.start := by
  simpa using (runs_measures p).best.le_length

theorem anchor_eq_none_iff : p.anchor = none ↔ p.runs.length = 0 := by
  have hlength : (((p.drop p.runs.start).take p.runs.length).map (·.value)).length = p.runs.length := by
    rw [List.length_map, List.length_take, List.length_drop]
    exact Nat.min_eq_left (runs_length_le p)
  rw [anchor, ← hlength, List.length_eq_zero_iff]
  split <;> simp_all

theorem anchor_eq_some (h : p.anchor = some a) :
    a.offset = p.runs.start ∧ a.bytes = ((p.drop p.runs.start).take p.runs.length).map (·.value) := by
  rw [anchor] at h
  split at h
  next => simp at h
  next b rest hbytes =>
    obtain rfl := Option.some.inj h
    exact ⟨rfl, hbytes.symm⟩

theorem length_anchor (h : p.anchor = some a) : a.bytes.length = p.runs.length := by
  rw [(anchor_eq_some h).2, List.length_map, List.length_take, List.length_drop]
  exact Nat.min_eq_left (runs_length_le p)

theorem anchor_le (h : p.anchor = some a) : a.offset + a.bytes.length ≤ p.length := by
  have hle := runs_length_le p
  have hpos : 0 < a.bytes.length := Nat.succ_pos _
  rw [length_anchor h] at hpos ⊢
  rw [(anchor_eq_some h).1]
  omega

theorem anchor_byte (h : p.anchor = some a) {j : Nat} (hj : j < a.bytes.length) (hin : a.offset + j < p.length) :
    p[a.offset + j].isExact ∧ a.bytes[j] = p[a.offset + j].value := by
  obtain ⟨hoffset, hbytes⟩ := anchor_eq_some h
  constructor
  · rw [length_anchor h] at hj
    have hmask := (runs_measures p).best.getElem? hj
    rw [← hoffset, List.getElem?_map, List.getElem?_eq_getElem hin] at hmask
    exact beq_iff_eq.2 (Option.some.inj hmask)
  · simp only [hbytes, List.getElem_map, List.getElem_take, List.getElem_drop, hoffset]

/-! ### Anchors of values under masks -/

theorem ofBytes_of_length (h : values.length = masks.length) :
    ∃ p, ofBytes values masks = .ok p ∧ p.map (·.value) = values ∧ p.map (·.mask) = masks := by
  refine ⟨List.zipWith MaskedByte.mk values masks, if_pos h, ?_, ?_⟩
  · rw [List.map_zipWith, ← List.map_uncurry_zip_eq_zipWith]
    exact List.map_fst_zip (Nat.le_of_eq h)
  · rw [List.map_zipWith, ← List.map_uncurry_zip_eq_zipWith]
    exact List.map_snd_zip (Nat.le_of_eq h.symm)

/-- The anchor is a run, with the values that stand in its place. No run is longer, and none of its length starts
further left. -/
structure Anchor.LeftmostLongest (a : Anchor) (values masks : Bytes) : Prop where
  nonempty : a.bytes ≠ []
  bytes : a.bytes = (values.drop a.offset).take a.bytes.length
  run : IsRun masks a.offset a.bytes.length
  longest : ∀ start length, IsRun masks start length → length ≤ a.bytes.length
  leftmost : ∀ start, IsRun masks start a.bytes.length → a.offset ≤ start

/-- The pattern of values and as many masks has no anchor if and only if no mask looks at every bit, and otherwise
the leftmost of the longest runs. -/
theorem anchor_leftmost_longest (h : values.length = masks.length) :
    ∃ p, ofBytes values masks = .ok p ∧ (p.anchor = none ↔ 0xFF ∉ masks) ∧
      ∀ a, p.anchor = some a → a.LeftmostLongest values masks := by
  obtain ⟨p, hp, hvalues, hmasks⟩ := ofBytes_of_length h
  have hruns := runs_measures p
  rw [hmasks] at hruns
  refine ⟨p, hp, ?_, fun a ha => ?_⟩
  · rw [anchor_eq_none_iff]
    constructor
    · intro hzero hmem
      obtain ⟨start, hrun⟩ := exists_isRun_of_mem hmem
      have hle := hruns.longest start 1 hrun
      omega
    · intro hnone
      refine Nat.eq_zero_of_not_pos fun hpos => hnone ?_
      exact List.mem_of_getElem? (hruns.best.getElem? hpos)
  · obtain ⟨hoffset, hbytes⟩ := anchor_eq_some ha
    have hlength := length_anchor ha
    have hpos : 0 < a.bytes.length := Nat.succ_pos _
    refine ⟨List.cons_ne_nil _ _, ?_, ?_, ?_, ?_⟩
    · rw [hlength, hoffset, hbytes, List.map_take, List.map_drop, hvalues]
    · rw [hlength, hoffset]
      exact hruns.best
    · rw [hlength]
      exact hruns.longest
    · rw [hlength] at hpos ⊢
      rw [hoffset]
      exact hruns.leftmost hpos

def tiedValues : Bytes := [0x10, 0x21, 0x32, 0x43, 0x54, 0x65, 0x76]

/-- One run of one byte and two runs of two bytes, the last of which ends with the pattern. -/
def tiedMasks : Bytes := [0xFF, 0x00, 0xFF, 0xFF, 0xF0, 0xFF, 0xFF]

theorem tiedMasks_anchor :
    tiedValues.length = tiedMasks.length ∧
      ∃ p, ofBytes tiedValues tiedMasks = .ok p ∧ p.anchor = some ⟨2, 0x32, [0x43]⟩ ∧
        Anchor.LeftmostLongest ⟨2, 0x32, [0x43]⟩ tiedValues tiedMasks := by
  have hlengths : tiedValues.length = tiedMasks.length := rfl
  obtain ⟨p, hp, -, hanchor⟩ := anchor_leftmost_longest hlengths
  have hfound : p.anchor = some ⟨2, 0x32, [0x43]⟩ := by
    rw [← Except.ok.inj hp]
    rfl
  exact ⟨hlengths, p, hp, hfound, hanchor _ hfound⟩

end PsxExe.Pattern
