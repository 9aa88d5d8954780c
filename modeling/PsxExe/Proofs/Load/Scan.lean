import Mathlib.Data.List.Forall2
import PsxExe.Proofs.Load.History
import PsxExe.Proofs.Load.Monitored
import PsxExe.Proofs.Signature.Search

/-!
# A scan in windows is a scan of the memory

A scan cuts regions into windows, and answers as if it had looked at every address in order. Each window
finds the first match that starts in its own part of the region, because it reaches as far into the next
part as a match can; the parts follow each other without a gap, and the regions in ascending order.
-/

namespace PsxExe

/-! ### First things, put together -/

theorem IsFirst.map {α β : Type} [LE α] [LE β] {P : α → Prop} {Q : β → Prop} {f : α → β}
    {answer : Option α} (h : IsFirst P answer) (hmono : ∀ i j, i ≤ j → f i ≤ f j)
    (hQ : ∀ b, Q b ↔ ∃ a, P a ∧ f a = b) :
    IsFirst Q (answer.map f) := by
  cases answer with
  | none =>
    intro b hb
    obtain ⟨a, ha, -⟩ := (hQ b).1 hb
    exact h a ha
  | some k =>
    refine ⟨(hQ _).2 ⟨k, h.1, rfl⟩, fun b hb => ?_⟩
    obtain ⟨a, ha, rfl⟩ := (hQ b).1 hb
    exact hmono k a (h.2 a ha)

/-- The first of several answers is the first of all, when what each can find comes before what later
ones can. -/
theorem isFirst_findSome? {α β : Type} [LE α] {f : β → Option α} {P : β → α → Prop} {l : List β}
    (hfirst : ∀ x ∈ l, IsFirst (P x) (f x)) (horder : l.Pairwise fun x y => ∀ i j, P x i → P y j → i ≤ j) :
    IsFirst (fun i => ∃ x ∈ l, P x i) (l.findSome? f) := by
  induction l with
  | nil => simp [IsFirst]
  | cons x rest ih =>
    obtain ⟨hx, hrest⟩ := List.forall_mem_cons.1 hfirst
    obtain ⟨hbefore, horder⟩ := List.pairwise_cons.1 horder
    rw [List.findSome?_cons]
    cases hanswer : f x with
    | none =>
      rw [hanswer] at hx
      refine (ih hrest horder).congr fun i => ?_
      simp only [List.mem_cons, exists_eq_or_imp, hx i, false_or]
    | some k =>
      rw [hanswer] at hx
      refine ⟨⟨x, List.mem_cons_self, hx.1⟩, ?_⟩
      rintro i ⟨y, hy, hi⟩
      rcases List.mem_cons.1 hy with rfl | hy
      · exact hx.2 i hi
      · exact hbefore y hy k i hx.1 hi

/-- The bytes agree with the pattern, one by one, in the bits of its masks. -/
def Pattern.Accepts (p : Pattern) (bytes : Bytes) : Prop :=
  List.Forall₂ (fun m b => b &&& m.mask = m.value &&& m.mask) p bytes

instance (p : Pattern) (bytes : Bytes) : Decidable (p.Accepts bytes) :=
  inferInstanceAs (Decidable (List.Forall₂ _ p bytes))

namespace AddressSpace

variable {s : AddressSpace} {r : Region} {p : Pattern} {start a : Int}

/-- A region that a scan looks at: the one that holds its start, and any above that is no mirror. -/
def Scanned (s : AddressSpace) (start : Int) (r : Region) : Prop :=
  r ∈ s.regions ∧ (start ∈ r.extent ∨ start < r.address ∧ r.mirrorOf = none)

/-- The bytes that are read at an address agree with the pattern. -/
def Matched (s : AddressSpace) (p : Pattern) (a : Int) : Prop :=
  ∃ bytes, s.read a p.length = .ok bytes ∧ p.Accepts bytes

instance (s : AddressSpace) (p : Pattern) (a : Int) : Decidable (s.Matched p a) :=
  match h : s.read a p.length with
  | .ok bytes => decidable_of_iff (p.Accepts bytes) (by simp [Matched, h])
  | .error _ => isFalse (by simp [Matched, h])

/-- A match that a scan can report: at its start or behind it, and inside one of the regions that it
looks at. -/
def MatchFrom (s : AddressSpace) (start : Int) (p : Pattern) (a : Int) : Prop :=
  start ≤ a ∧ ∃ r, s.Scanned start r ∧ r.address ≤ a ∧ a + p.length ≤ r.stop ∧ s.Matched p a

/-- A match that starts in the part of its region that a window looks after. -/
def MatchIn (s : AddressSpace) (p : Pattern) (w : Region × Nat) (a : Int) : Prop :=
  w.1.address + w.2 ≤ a ∧ a < w.1.address + w.2 + windowStep ∧ a + p.length ≤ w.1.stop ∧ s.Matched p a

theorem Arranged.matched_iff (hs : s.Arranged) (hr : r ∈ s.regions) (hp : p ≠ []) (ha : r.address ≤ a)
    (hfits : a + p.length ≤ r.stop) :
    s.Matched p a ↔
      ∀ j (hj : j < p.length), p[j].accepts ((s.storageOf r).byteAt (r.storageIndex a + j)) := by
  have hpos : 0 < p.length := List.length_pos_iff.2 hp
  have hregion : s.regionAt a = some r := hs.regionAt_of_mem hr (Region.mem_extent.2 ⟨ha, by omega⟩)
  have hread := hs.read_of_locate (locate_eq_ok_iff.2 ⟨hregion, hfits⟩)
  simp only [Matched, hread, Except.ok.injEq, exists_eq_left', Pattern.Accepts, List.forall₂_iff_get,
    List.length_map, List.length_range, true_and, List.get_eq_getElem, List.getElem_map, List.getElem_range,
    MaskedByte.accepts, beq_iff_eq]
  exact ⟨fun h j hj => h j hj hj, fun h j hj _ => h j hj⟩

/-! ### Windows -/

theorem mem_windowOffsets {first size offset : Nat} :
    offset ∈ windowOffsets first size ↔ ∃ i, first + windowStep * i = offset ∧ offset < size := by
  simp only [windowOffsets, List.mem_map, List.mem_range]
  refine exists_congr fun i => ?_
  rw [windowStep]
  omega

theorem exists_window {first i : Nat} (h : first ≤ i) :
    ∃ k, first + windowStep * k ≤ i ∧ i < first + windowStep * k + windowStep := by
  refine ⟨(i - first) / windowStep, ?_⟩
  rw [windowStep]
  omega

theorem searchWindow_eq (r : Region) (offset : Nat) :
    s.searchWindow p (r, offset) =
      (p.findUp (s.regionWindow r offset (windowLength p)) 0).map
        fun o : Nat => r.address + offset + o := by
  rw [searchWindow]
  cases p.findUp (s.regionWindow r offset (windowLength p)) 0 <;> rfl

@[simp] theorem size_regionWindow (r : Region) (offset length : Nat) :
    (s.regionWindow r offset length).size = min length (r.size.toNat - offset) := Array.size_ofFn

theorem getD_regionWindow {offset length i : Nat} (hi : i < min length (r.size.toNat - offset)) :
    (s.regionWindow r offset length).getD i 0 = (s.storageOf r).byteAt (r.offset + offset + i) := by
  rw [Array.getD, dif_pos (by rwa [size_regionWindow])]
  exact Array.getElem_ofFn ..

/-- Where the pattern fits into a window, the window is matched there if the memory is. -/
theorem Arranged.acceptsFrom_regionWindow (hs : s.Arranged) (hr : r ∈ s.regions) (hp : p ≠ [])
    {offset length o : Nat} (hfits : o + p.length ≤ min length (r.size.toNat - offset)) :
    Pattern.acceptsFrom (s.regionWindow r offset length) o p ↔ s.Matched p (r.address + offset + o) := by
  have hpos : 0 < p.length := List.length_pos_iff.2 hp
  have hindex : r.storageIndex (r.address + offset + o) = r.offset + offset + o := by
    rw [Region.storageIndex]
    omega
  rw [hs.matched_iff hr hp (by omega) (by rw [Region.stop_eq]; omega), Pattern.acceptsFrom_iff, hindex]
  refine forall_congr' fun j => forall_congr' fun hj => ?_
  rw [getD_regionWindow (by omega), Nat.add_assoc _ o j]

theorem Arranged.searchWindow_isFirst (hs : s.Arranged) (hr : r ∈ s.regions) (hp : p ≠ []) (offset : Nat) :
    IsFirst (s.MatchIn p (r, offset)) (s.searchWindow p (r, offset)) := by
  have hpos : 0 < p.length := List.length_pos_iff.2 hp
  have hsize := hs.nonempty r hr
  have hfirst := Pattern.findUp_isFirst hp (s.regionWindow r offset (windowLength p)) 0
  rw [searchWindow_eq]
  refine hfirst.map (f := fun o : Nat => r.address + offset + o) (fun i j hij => by omega) fun a => ?_
  simp only [MatchIn, size_regionWindow, windowLength, Region.stop_eq]
  constructor
  · rintro ⟨hfrom, hto, hfits, hmatched⟩
    have ha : r.address + offset + (a - r.address - offset).toNat = a := by omega
    have hwindow : (a - r.address - offset).toNat + p.length ≤
        min (windowStep + p.length - 1) (r.size.toNat - offset) := by omega
    refine ⟨(a - r.address - offset).toNat, ⟨by omega, hwindow, ?_⟩, ha⟩
    rw [hs.acceptsFrom_regionWindow hr hp hwindow, ha]
    exact hmatched
  · rintro ⟨o, ⟨-, hwindow, haccepts⟩, rfl⟩
    refine ⟨by omega, by omega, by omega, ?_⟩
    exact (hs.acceptsFrom_regionWindow hr hp hwindow).1 haccepts

/-! ### Scans -/

theorem mem_scanRegions : r ∈ s.scanRegions start ↔ s.Scanned start r := by
  simp only [scanRegions, Scanned, Region.isMirror, List.mem_filter, Bool.or_eq_true, Bool.and_eq_true,
    decide_eq_true_eq, Bool.not_eq_true', Option.isSome_eq_false_iff, Option.isNone_iff_eq_none]

theorem mem_scanWindows {offset : Nat} :
    (r, offset) ∈ s.scanWindows start ↔
      s.Scanned start r ∧
        ∃ i, (start - r.address).toNat + windowStep * i = offset ∧ offset < r.size.toNat := by
  simp only [scanWindows, List.mem_flatMap, mem_scanRegions, List.mem_map, Prod.mk.injEq, mem_windowOffsets]
  constructor
  · rintro ⟨_, hr, _, hoffset, rfl, rfl⟩
    exact ⟨hr, hoffset⟩
  · rintro ⟨hr, hoffset⟩
    exact ⟨r, hr, offset, hoffset, rfl, rfl⟩

/-- What can match in a window lies in front of what can match in later ones. -/
theorem Arranged.scanWindows_ordered (hs : s.Arranged) (hp : p ≠ []) (start : Int) :
    (s.scanWindows start).Pairwise fun v w => ∀ a b, s.MatchIn p v a → s.MatchIn p w b → a ≤ b := by
  have hpos : 0 < p.length := List.length_pos_iff.2 hp
  rw [scanWindows, List.pairwise_flatMap]
  constructor
  · intro r _
    rw [windowOffsets, List.map_map, List.pairwise_map]
    refine List.pairwise_lt_range.imp fun {i j} hij a b ha hb => ?_
    simp only [MatchIn, Function.comp_apply, windowStep] at ha hb
    omega
  · refine (hs.pairwise_stop_le.filter _).imp fun {r q} hrq v hv w hw a b ha hb => ?_
    obtain ⟨_, -, rfl⟩ := List.mem_map.1 hv
    obtain ⟨_, -, rfl⟩ := List.mem_map.1 hw
    simp only [MatchIn] at ha hb
    omega

theorem Arranged.scan_isFirst (hs : s.Arranged) (hp : p ≠ []) (start : Int) :
    IsFirst (s.MatchFrom start p) ((s.scanWindows start).findSome? (s.searchWindow p)) := by
  have hpos : 0 < p.length := List.length_pos_iff.2 hp
  have hfirst : ∀ w ∈ s.scanWindows start, IsFirst (s.MatchIn p w) (s.searchWindow p w) := by
    rintro ⟨r, offset⟩ hw
    exact hs.searchWindow_isFirst (mem_scanWindows.1 hw).1.1 hp offset
  refine (isFirst_findSome? hfirst (hs.scanWindows_ordered hp start)).congr fun a => ?_
  constructor
  · rintro ⟨⟨r, offset⟩, hw, hfrom, -, hfits, hmatched⟩
    obtain ⟨hr, i, hi, -⟩ := mem_scanWindows.1 hw
    dsimp only at hfrom hfits
    exact ⟨by omega, r, hr, by omega, hfits, hmatched⟩
  · rintro ⟨hstart, r, hr, hfrom, hfits, hmatched⟩
    have hstop : a + p.length ≤ r.address + r.size := hfits
    obtain ⟨i, hi, hnext⟩ :=
      exists_window (show (start - r.address).toNat ≤ (a - r.address).toNat by omega)
    refine ⟨(r, (start - r.address).toNat + windowStep * i), mem_scanWindows.2 ⟨hr, i, rfl, by omega⟩, ?_⟩
    simp only [MatchIn]
    exact ⟨by omega, by omega, hfits, hmatched⟩

end AddressSpace

/-! ### Runs -/

section Runs

variable {s : AddressSpace} {pattern : Pattern} {p : Progress} {found : Option Int}

theorem searchWindows_ok {windows : List (Region × Nat)}
    (h : ((searchWindows s pattern windows).exec p).1 = .ok found) :
    found = windows.findSome? (s.searchWindow pattern) := by
  obtain ⟨m, hcancelled | hanswer⟩ := searchWindows_outcome s pattern windows p
  · rw [hcancelled] at h
    cases h
  · rw [hanswer] at h
    exact (Except.ok.inj h).symm

theorem searchWindows_ends (h : p.monitor.Patient) (windows : List (Region × Nat)) :
    ∃ q, LoadM.Ends (searchWindows s pattern windows) p (windows.findSome? (s.searchWindow pattern)) q ∧
      q.space = p.space := by
  induction windows generalizing p with
  | nil => exact ⟨p, .pure h none, rfl⟩
  | cons w rest ih =>
    rw [searchWindows, List.findSome?_cons]
    cases s.searchWindow pattern w with
    | none =>
      obtain ⟨q, hends, hspace⟩ := ih (p := { p with monitor := p.monitor.check }) h.check
      exact ⟨q, (LoadM.Ends.check h).bind hends, hspace⟩
    | some hit => exact ⟨_, (LoadM.Ends.check h).bind (.pure h.check (some hit)), rfl⟩

theorem searchWindows_of_patient (h : p.monitor.Patient) (windows : List (Region × Nat)) :
    ((searchWindows s pattern windows).exec p).1 = .ok (windows.findSome? (s.searchWindow pattern)) := by
  obtain ⟨q, hends, -⟩ := @searchWindows_ends s pattern p h windows
  exact congrArg Prod.fst hends.run

theorem findSignature_exec (start : Int) (signature : Signature) :
    (findSignature start signature).exec p =
      if (p.space.regionAt start).isNone then (.ok none, p)
      else (searchWindows p.space signature.pattern (p.space.scanWindows start)).exec p := by
  rw [findSignature, LoadM.exec_bind, LoadM.exec_space]
  by_cases hnone : (p.space.regionAt start).isNone
  · simp only [if_pos hnone]
    rfl
  · simp only [if_neg hnone]

def AddressSpace.firstMatch (s : AddressSpace) (start : Int) (pattern : Pattern) : Option Int :=
  if (s.regionAt start).isNone then none else (s.scanWindows start).findSome? (s.searchWindow pattern)

theorem findSignature_outcome (start : Int) (signature : Signature) (p : Progress) :
    ∃ m, (findSignature start signature).exec p = (.error .cancelled, { p with monitor := m }) ∨
      (findSignature start signature).exec p =
        (.ok (p.space.firstMatch start signature.pattern), { p with monitor := m }) := by
  rw [findSignature_exec, AddressSpace.firstMatch]
  by_cases hnone : (p.space.regionAt start).isNone
  · rw [if_pos hnone, if_pos hnone]
    exact ⟨p.monitor, .inr rfl⟩
  · rw [if_neg hnone, if_neg hnone]
    exact searchWindows_outcome ..

theorem findSignature_ends (h : p.monitor.Patient) (start : Int) (signature : Signature) :
    ∃ q, LoadM.Ends (findSignature start signature) p (p.space.firstMatch start signature.pattern) q ∧
      q.space = p.space := by
  rw [findSignature, AddressSpace.firstMatch]
  by_cases hnone : (p.space.regionAt start).isNone
  · refine ⟨p, (LoadM.Ends.space h).bind ?_, rfl⟩
    simp only [if_pos hnone]
    exact .pure h none
  · obtain ⟨q, hends, hspace⟩ := searchWindows_ends h (p.space.scanWindows start)
    refine ⟨q, (LoadM.Ends.space h).bind ?_, hspace⟩
    simp only [if_neg hnone]
    exact hends

end Runs

namespace AddressSpace

/-- A scan of a space that was built finds the first match there is, and none in a space where its start
is not mapped. It answers whenever the monitor lets it finish, and never answers anything else. -/
theorem Built.findSignature_isFirst {p : Progress} (h : Built p.space) (start : Int) {signature : Signature}
    (hp : signature.pattern ≠ []) :
    (p.monitor.Patient → ∃ found, ((findSignature start signature).exec p).1 = .ok found) ∧
      ∀ found, ((findSignature start signature).exec p).1 = .ok found →
        (p.space.regionAt start = none → found = none) ∧
          ((p.space.regionAt start).isSome → IsFirst (p.space.MatchFrom start signature.pattern) found) := by
  rw [findSignature_exec]
  cases hstart : p.space.regionAt start with
  | none =>
    refine ⟨fun _ => ⟨none, rfl⟩, fun found hfound => ⟨fun _ => ?_, fun hmapped => ?_⟩⟩
    · exact (Except.ok.inj hfound).symm
    · exact absurd hmapped Bool.false_ne_true
  | some r =>
    refine ⟨fun hpatient => ⟨_, searchWindows_of_patient hpatient _⟩, fun found hfound => ⟨?_, fun _ => ?_⟩⟩
    · intro hnone
      exact absurd hnone (Option.some_ne_none r)
    · rw [searchWindows_ok hfound]
      exact h.arranged.scan_isFirst hp start

/-- Two regions without a gap, where a pattern can lie across the border. -/
def touching : AddressSpace := Operation.runAll defaultHost ∅ [
  .createRegion "FRONT" ⟨0x1000, 4⟩ .all (some [0, 9, 1, 2]),
  .createRegion "BACK" ⟨0x1004, 4⟩ .all (some [3, 1, 2, 3])]

theorem built_touching : Built touching := Built.empty.runAll ..

def threeBytes : Signature := ⟨"three", [⟨1, 0xFF⟩, ⟨2, 0xFF⟩, ⟨3, 0xFF⟩], 0⟩

theorem touching_findSignature :
    ((findSignature 0x1002 threeBytes).exec ⟨touching, {}, []⟩).1 = .ok (some 0x1005) := by
  obtain ⟨hends, hanswer⟩ :=
    Built.findSignature_isFirst (p := ⟨touching, {}, []⟩) built_touching 0x1002
      (show threeBytes.pattern ≠ [] by decide)
  obtain ⟨found, hfound⟩ := hends Monitor.patient_default
  have hfirst := (hanswer found hfound).2 rfl
  have hmatch : touching.MatchFrom 0x1002 threeBytes.pattern 0x1005 :=
    ⟨by decide, ⟨"BACK", ⟨0x1004, 4⟩, .all, 1, 0, none, true⟩, ⟨by decide, .inr (by decide)⟩,
      by decide, by decide, by decide⟩
  cases found with
  | none => exact absurd hmatch (hfirst _)
  | some k =>
    obtain ⟨⟨hfrom, r, ⟨hr, -⟩, haddress, hfits, hmatched⟩, hleast⟩ := hfirst
    have hle := hleast _ hmatch
    have hregions : ∀ r ∈ touching.regions,
        r.address = 0x1000 ∧ r.stop = 0x1004 ∨ r.address = 0x1004 ∧ r.stop = 0x1008 := by decide
    have hlength : threeBytes.pattern.length = 3 := rfl
    have hplace : k = 0x1004 ∨ k = 0x1005 := by
      have := hregions r hr
      omega
    rcases hplace with rfl | rfl
    · exact absurd hmatched (by decide)
    · exact hfound

end AddressSpace

end PsxExe
