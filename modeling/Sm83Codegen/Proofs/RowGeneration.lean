import Sm83Codegen.Proofs.Encodings
import Sm83Codegen.Proofs.TableText

/-!
# What is generated from a table by rows

What the catalog makes of a table is evaluated on rows, without the text of the table: the text
gives the same.

* `Table.ofText_text` -- the table of a document is that of its text;
* `OrderedRows.prepared`, `OrderedRows.assembled` -- what is prepared and assembled from the text of
  rows;
* `OrderedRows.generated?_eq_some` -- what is generated from it for opcodes that the catalog has;
* `sm83_generated` -- the core of the SM83 is the code that is generated from its table.
-/

namespace Sm83Codegen

open Logged (bind_eq_ok)

/-! ## 1. Tables by rows -/

theorem Table.ofText_text {document : TableDocument} {t : Table} (h : ofDocument document = .ok t) :
    (ofText document.text).result = .ok t :=
  ofText_eq_ok.mpr ⟨document, document.ofText_text (ofDocument_names_nodup h), h⟩

namespace OrderedRows

variable {x y : OrderedRows} {ds : List Descriptor} {s : Selection} {ks : List OpcodeKey}
  {g : Generated}

/-- What is prepared from a table by rows. -/
theorem prepared (h : x.descriptors? y catalog = some ds) : ∃ c,
    Prepared (TableDocument.text ⟨x.rows.partition, y.rows.partition⟩) catalog c ds := by
  obtain ⟨t, c, ht, hc, hmerged⟩ := descriptors?_eq_some ascending_catalog catalog_keys_nodup h
  exact ⟨c, checked_catalog, load_eq_ok.mpr ⟨t, Table.ofText_text ht, hc⟩, hmerged⟩

/-- What is generated from a table by rows, for opcodes that the catalog has. -/
theorem assembled (h : x.descriptors? y catalog = some ds) (hs : s.OfClaimed catalog)
    (hg : (generateFamilies s ds).result = .ok g) :
    (assemble (TableDocument.text ⟨x.rows.partition, y.rows.partition⟩) catalog s).result =
      .ok g := by
  obtain ⟨c, hprepared⟩ := prepared h
  have hgaps := checkGaps_eq_ok hprepared.loaded hs
  simp only [assemble_result, bind_eq_ok]
  exact ⟨_, hprepared.checked, c, hprepared.loaded, _, hgaps, ds, hprepared.merged, hg⟩

/-- What the descriptors of rows generate for some opcodes. -/
def generated? (x y : OrderedRows) (ks : List OpcodeKey) : Option Generated :=
  (x.descriptors? y catalog).bind fun ds => (generateFamilies (.ofKeys ks) ds).result.toOption

/-- **The text of rows generates what their descriptors do**, for opcodes that the catalog has. -/
theorem generated?_eq_some (hks : ∀ k ∈ ks, ∃ f ∈ catalog, k ∈ f.keys)
    (h : x.generated? y ks = some g) :
    (assemble (TableDocument.text ⟨x.rows.partition, y.rows.partition⟩) catalog
      (.ofKeys ks)).result = .ok g ∧
    (generate (TableDocument.text ⟨x.rows.partition, y.rows.partition⟩) catalog
      (.ofKeys ks)).result = .ok g.artifacts := by
  obtain ⟨ds, hds, hg⟩ := Option.bind_eq_some_iff.mp h
  cases hresult : (generateFamilies (.ofKeys ks) ds).result with
  | error e =>
    rw [hresult] at hg
    cases hg
  | ok g' =>
    rw [hresult] at hg
    obtain rfl := Option.some.inj hg
    have hassemble := assembled hds (Selection.ofClaimed_ofKeys hks) hresult
    exact ⟨hassemble, generate_eq_ok.mpr ⟨_, hassemble, rfl⟩⟩

end OrderedRows

/-! ## 2. The core -/

/-- The core of descriptors is what they generate, if none is without members. -/
theorem Core.ofDescriptors_generated {ds : List Descriptor} {g : Generated}
    (hmembers : ∀ d ∈ ds, d.members ≠ []) (hg : (generateFamilies {} ds).result = .ok g) :
    Core.ofDescriptors ds = ⟨g.branches, g.routines⟩ := by
  obtain ⟨_, rfl⟩ := generateFamilies_eq_ok.mp hg
  have hpieces (d : Descriptor) : (d.sectionOf {}).pieces = d.members.map d.piece :=
    congrArg (List.map d.piece) (List.filter_eq_self.mpr fun _ _ => rfl)
  unfold Core.ofDescriptors Generated.ofSections
  congr 1
  · rw [List.flatMap_map]
    refine List.flatMap_congr fun d _ => ?_
    rw [hpieces, List.map_map]
    rfl
  · rw [List.filter_eq_self.mpr fun x hx => ?_, List.map_map]
    · rfl
    · obtain ⟨d, hd, rfl⟩ := List.mem_map.mp hx
      rw [hpieces, List.isEmpty_map, Bool.not_eq_true', List.isEmpty_eq_false_iff]
      exact hmembers d hd

/-- Every opcode of the catalog has its tests in the instruction set. -/
theorem generates_instructionSet : ((firstRows.descriptors? secondRows catalog).any fun ds =>
    (generateFamilies {} ds).result.isOk) = true := by decide +kernel

theorem catalog_keys_ne_nil : ∀ f ∈ catalog, f.keys ≠ [] := by decide

/-- **The core of the SM83 is generated from the text of its table**: the branches and routines that
    all families of the catalog give are those that it has. -/
theorem sm83_generated : ∃ g, (assemble instructionSet.text catalog {}).result = .ok g ∧
    (generate instructionSet.text catalog {}).result = .ok g.artifacts ∧
    sm83 = ⟨g.branches, g.routines⟩ := by
  obtain ⟨ds, hds, hok⟩ := (Option.any_eq_true _ _).mp generates_instructionSet
  cases hg : (generateFamilies {} ds).result with
  | error e =>
    rw [hg] at hok
    cases hok
  | ok g =>
    have hassemble := OrderedRows.assembled hds (Selection.ofClaimed_all catalog) hg
    rw [← instructionSet_rows] at hassemble
    refine ⟨g, hassemble, generate_eq_ok.mpr ⟨g, hassemble, rfl⟩, ?_⟩
    obtain ⟨c, hprepared⟩ := OrderedRows.prepared hds
    have hmembers : ∀ d ∈ ds, d.members ≠ [] := fun d hd =>
      hprepared.members_ne_nil hd (catalog_keys_ne_nil _ (hprepared.family_mem hd))
    exact (coreOf_eq (descriptorsOfDocument_instructionSet hds)).trans
      (Core.ofDescriptors_generated hmembers hg)

end Sm83Codegen
