import PsxExe.Proofs.Label.Table
import PsxExe.Proofs.Load.History

/-!
# Label tables over time

A label table only ever grows: whatever labels are offered to it, a name that is bound keeps its label, with the
address, kind and region that it was bound with first. All that an address space does with its labels, in single
operations or in loads, is to offer more of them. So the laws of tables that are built up from nothing are also the
laws of the labels of every space that a history builds.
-/

namespace PsxExe

namespace LabelTable

variable {t u : LabelTable} {l k : Label} {name : String}

/-- The table after a label was offered to it; it is the same when it refuses the label. -/
def offer (t : LabelTable) (l : Label) : LabelTable := ((t.add l).map (·.2)).toOption.getD t

def offerAll (t : LabelTable) (labels : List Label) : LabelTable := labels.foldl offer t

theorem offer_of_add (h : t.add l = .ok (k, u)) : t.offer l = u := by
  rw [offer, h]
  rfl

theorem offer_of_refused {e : LabelError} (h : t.add l = .error e) : t.offer l = t := by
  rw [offer, h]
  rfl

theorem offerAll_append (t : LabelTable) (labels more : List Label) :
    t.offerAll (labels ++ more) = (t.offerAll labels).offerAll more := List.foldl_append

theorem find?_offer (hk : t.find? name = some k) (l : Label) : (t.offer l).find? name = some k := by
  cases hadd : t.add l with
  | error e =>
    rw [offer_of_refused hadd]
    exact hk
  | ok added =>
    obtain ⟨hfirst, hself, hother⟩ := find?_of_add (k := added.1) (u := added.2) hadd
    rw [offer_of_add (k := added.1) hadd]
    by_cases hname : name = l.name
    · rw [hname] at hk ⊢
      rw [hself, hfirst, hk]
      rfl
    · rw [hother name hname]
      exact hk

theorem find?_offerAll (hk : t.find? name = some k) (labels : List Label) :
    (t.offerAll labels).find? name = some k := by
  induction labels generalizing t with
  | nil => exact hk
  | cons l rest ih => exact ih (find?_offer hk l)

/-! ### Names -/

def Named (t : LabelTable) : Prop := ∀ name k, t.find? name = some k → isLabelName name = true

theorem named_empty : Named ∅ := fun _ _ hk => by cases hk

theorem Named.offer (h : t.Named) (l : Label) : (t.offer l).Named := by
  intro name k hk
  cases hadd : t.add l with
  | error e =>
    rw [offer_of_refused hadd] at hk
    exact h name k hk
  | ok added =>
    rw [offer_of_add (k := added.1) (u := added.2) hadd] at hk
    by_cases hname : name = l.name
    · rw [hname]
      exact (add_binds (k := added.1) (u := added.2) hadd).1
    · rw [(find?_of_add (k := added.1) (u := added.2) hadd).2.2 name hname] at hk
      exact h name k hk

theorem Named.offerAll (h : t.Named) (labels : List Label) : (t.offerAll labels).Named := by
  induction labels generalizing t with
  | nil => exact h
  | cons l rest ih => exact ih (h.offer l)

/-! ### Laws -/

/-- How a table answers, now and after more labels were offered to it. -/
structure Lawful (t : LabelTable) : Prop where
  kept : ∀ name k, t.find? name = some k → ∀ labels, (t.offerAll labels).find? name = some k
  granted : ∀ l k u, t.add l = .ok (k, u) → k = (t.find? l.name).getD l ∧ u.find? l.name = some k ∧
    ∀ name, name ≠ l.name → u.find? name = t.find? name
  free : ∀ l, isLabelName l.name = true → t.find? l.name = none →
    ∃ u, t.add l = .ok (l, u) ∧ u.find? l.name = some l
  /-- A name that is bound at the address keeps its first label, and that is the one that is given back, whatever
  else the new one says. -/
  again : ∀ l k, t.find? l.name = some k → k.address = l.address → t.add l = .ok (k, t)
  refused : ∀ l e, t.add l = .error e → t.offer l = t ∧
    (isLabelName l.name = false ∧ e = .invalidName l.name ∨
      ∃ k, t.find? l.name = some k ∧ k.address ≠ l.address ∧ e = .alreadyDefined l.name k.address)
  listed : ∀ l, l ∈ t.listing ↔ t.find? l.name = some l
  once : t.listing.Nodup
  ascending : t.listing.Pairwise Label.Before
  size : t.size = t.listing.length
  kinds : t.size = (LabelKind.all.map t.count).sum

theorem Named.lawful (h : t.Named) : t.Lawful where
  kept := fun _ _ => find?_offerAll
  granted := fun _ _ _ => find?_of_add
  free := fun l hname hfree => ⟨_, add_of_free hname (find?_eq_none_iff.1 hfree), find?_insert_self t l⟩
  again := by
    intro l k hk haddress
    rw [add_of_find? (h _ k hk) hk, if_pos haddress]
  refused := by
    intro l e he
    exact ⟨offer_of_refused he, (add_eq_error_iff.1 he).imp_right And.right⟩
  listed := fun _ => mem_listing
  once := t.listing_nodup
  ascending := t.listing_ascending
  size := t.length_listing.symm
  kinds := t.sum_count.symm

end LabelTable

namespace AddressSpace

variable {host : Host} {s t : AddressSpace} {a : Int} {name : String}

theorem Change.offers (h : Change host s t) : ∃ labels, t.labels = s.labels.offerAll labels := by
  rcases h.notes.1 with hsame | ⟨l, k, hadd⟩
  · exact ⟨[], hsame⟩
  · exact ⟨[l], (LabelTable.offer_of_add hadd).symm⟩

theorem Changes.offers (h : Changes host s t) : ∃ labels, t.labels = s.labels.offerAll labels := by
  induction h with
  | refl => exact ⟨[], rfl⟩
  | tail _ hlast ih =>
    obtain ⟨labels, hlabels⟩ := ih
    obtain ⟨more, hmore⟩ := hlast.offers
    exact ⟨labels ++ more, by rw [hmore, hlabels, LabelTable.offerAll_append]⟩

theorem Change.named (h : Change host s t) (hs : s.labels.Named) : t.labels.Named := by
  obtain ⟨labels, hlabels⟩ := h.offers
  rw [hlabels]
  exact hs.offerAll labels

theorem Built.named (h : Built s) : s.labels.Named :=
  h.of_changes LabelTable.named_empty fun _ _ _ hchange hs => hchange.named hs

theorem run_createLabel_of_refused {kind : LabelKind} {e : SpaceError} (h : s.createLabel a name kind = .error e)
    (host : Host) : (Operation.createLabel a name kind).run host s = s := by
  rw [Operation.run, h]
  rfl

theorem run_createFunction_of_refused {e : SpaceError} (h : s.createFunction a name = .error e) (host : Host) :
    (Operation.createFunction a name).run host s = s := by
  rw [Operation.run, h]
  rfl

/-- Tables that labels build up from nothing are lawful, and so are the labels of every space that a history builds.
What operations do next offers more labels, so that every name which is bound keeps its label. A label or a function
that is refused leaves the whole space as it was, and so does a label for a name that is bound at its address, which
gives back the label that has the name, whatever kind is asked for. -/
theorem Built.labels_append_only (h : Built s) (labels : List Label) :
    ((∅ : LabelTable).offerAll labels).Lawful ∧ s.labels.Lawful ∧
      (∀ host operations, (∃ more, (Operation.runAll host s operations).labels = s.labels.offerAll more) ∧
        ∀ name l, s.labels.find? name = some l →
          (Operation.runAll host s operations).labels.find? name = some l) ∧
      (∀ a name kind, (∀ e, s.createLabel a name kind = .error e →
          ∀ host, (Operation.createLabel a name kind).run host s = s) ∧
        ∀ l, s.labels.find? name = some l → l.address = a → s.createLabel a name kind = .ok (l, s)) ∧
      ∀ a name e, s.createFunction a name = .error e → ∀ host, (Operation.createFunction a name).run host s = s := by
  have hlawful := h.named.lawful
  refine ⟨(LabelTable.named_empty.offerAll labels).lawful, hlawful, fun host operations => ?_,
    fun a name kind => ⟨fun e he => run_createLabel_of_refused he, fun l hl haddress => ?_⟩,
    fun a name e he => run_createFunction_of_refused he⟩
  · obtain ⟨more, hmore⟩ := (Operation.runAll_changes operations s : Changes host s _).offers
    refine ⟨⟨more, hmore⟩, fun name l hl => ?_⟩
    rw [hmore]
    exact hlawful.kept name l hl more
  · have hadd := hlawful.again ⟨a, name, kind, s.regionNameAt a⟩ l hl haddress
    exact createLabel_eq_ok_iff.2 ⟨s.labels, hadd, rfl⟩

/-- Labels for one address and for addresses on both sides of zero, and with names that are bound already. -/
def contested : AddressSpace := Operation.runAll defaultHost ∅ [
  .createRegion "RAM" ⟨0x1000, 0x10⟩ .all none,
  .createFunction 0x1000 "boot",
  .createLabel 0x2000 "boot" .data,
  .createLabel 0x1000 "boot" .register,
  .createLabel 0x1000 "alias" .data,
  .createLabel (-4) "below" .data,
  .createLabel 0x100000000 "1st" .data]

theorem built_contested : Built contested := Built.empty.runAll ..

theorem contested_labels :
    Built contested ∧ contested.labels.size = 3 ∧
      contested.labels.listing.map (·.name) = ["below", "alias", "boot"] ∧
      contested.labels.listing.Pairwise Label.Before ∧
      (Operation.runAll defaultHost contested [.createFunction 0x3000 "boot"]).labels.find? "boot" =
        some ⟨0x1000, "boot", .function, "RAM"⟩ ∧
      contested.createLabel 0x1000 "boot" .entryPoint = .ok (⟨0x1000, "boot", .function, "RAM"⟩, contested) ∧
      (Operation.createFunction 0x3000 "boot").run defaultHost contested = contested ∧
      ((∅ : LabelTable).offerAll [⟨7, "x", .data, ""⟩, ⟨8, "x", .function, ""⟩]).size =
        (LabelKind.all.map ((∅ : LabelTable).offerAll [⟨7, "x", .data, ""⟩, ⟨8, "x", .function, ""⟩]).count).sum := by
  obtain ⟨htable, hlawful, hkept, hlabel, hfunction⟩ :=
    Built.labels_append_only built_contested [⟨7, "x", .data, ""⟩, ⟨8, "x", .function, ""⟩]
  have hboot : contested.labels.find? "boot" = some ⟨0x1000, "boot", .function, "RAM"⟩ := by decide
  have hrefused : contested.createFunction 0x3000 "boot" = .error (.label (.alreadyDefined "boot" 0x1000)) := by rfl
  have hnames : contested.labels.listing.map (·.name) = ["below", "alias", "boot"] := by decide
  refine ⟨built_contested, ?_, hnames, hlawful.ascending, (hkept _ _).2 _ _ hboot, (hlabel _ _ _).2 _ hboot rfl,
    hfunction _ _ _ hrefused _, htable.kinds⟩
  have hlength := congrArg List.length hnames
  rw [List.length_map] at hlength
  rw [hlawful.size, hlength]
  rfl

end AddressSpace

end PsxExe
