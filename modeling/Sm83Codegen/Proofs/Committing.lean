import Mathlib.Logic.Function.Basic
import Sm83Codegen.Output
import Sm83Codegen.Proofs.StagingPaths

/-!
# What a commit leaves behind

A commit stages all files and then replaces the targets one after the other. Any of its calls can
fail. The files that it staged are removed in every case, but a target that was replaced is not put
back, so a renaming that fails after others leaves some targets new and the rest as they were.

* `Failures`, `Disk`, `Failures.files` -- a file system in which any call can fail;
* `discard_cleared` -- removals change nothing else, and take their files away unless one fails;
* `stageAll_staged` -- staging writes every file, or removes what it wrote;
* `replaceAll_replaced` -- targets are replaced in order up to the first fault;
* `commit_replaces` -- how a commit ends, and what it leaves;
* `commit_torn` -- one that fails with the first of two targets replaced.
-/

namespace Sm83Codegen

/-! ## 1. A file system in which calls fail -/

/-- The calls that fail, each kind counted from the first one on, and why. A write that fails leaves
    a part of the text or no file. -/
structure Failures where
  write : Nat → Option (FileFault × Option String)
  rename : Nat → Option FileFault
  remove : Nat → Option FileFault

/-- Files, each under the steps of its path, and the numbers of calls so far. -/
structure Disk where
  content : List String → Option String
  writes : Nat
  renames : Nat
  removes : Nat

namespace Disk

/-- The fault of a call that needs a file where there is none. -/
def missing? (d : Disk) (path : String) : Option FileFault :=
  if d.content (FilePath.parts path) = none then some .notFound else none

/-- The disk with something else at a path. -/
def put (d : Disk) (path : String) (left : Option String) : Disk :=
  { d with content := Function.update d.content (FilePath.parts path) left }

/-- The disk after a write that leaves something at its path. -/
def written (d : Disk) (path : String) (left : Option String) : Disk :=
  { d with writes := d.writes + 1 }.put path left

/-- The disk after a file was moved to another path. -/
def moved (d : Disk) (source target : String) : Disk :=
  ({ d with renames := d.renames + 1 }.put source none).put target
    (d.content (FilePath.parts source))

end Disk

/-- The operations on a disk on which calls fail. Reports go elsewhere. -/
def Failures.files (f : Failures) : Files (StateM Disk) where
  readText path := do
    match (← get).content (FilePath.parts path) with
    | some text => pure (.ok text)
    | none => pure (.error .notFound)
  writeText path text := do
    let d ← get
    match f.write d.writes with
    | some (fault, left) =>
      set (d.written path left)
      pure (.error fault)
    | none =>
      set (d.written path (some text))
      pure (.ok ())
  rename source target := do
    let d ← get
    match (f.rename d.renames).or (d.missing? source) with
    | some fault =>
      set { d with renames := d.renames + 1 }
      pure (.error fault)
    | none =>
      set (d.moved source target)
      pure (.ok ())
  remove path := do
    let d ← get
    let called := { d with removes := d.removes + 1 }
    match (f.remove d.removes).or (d.missing? path) with
    | some fault =>
      set called
      pure (.error fault)
    | none =>
      set (called.put path none)
      pure (.ok ())
  present path := do return ((← get).content (FilePath.parts path)).isSome
  report _ := pure ()

section

variable {f : Failures}

theorem Disk.missing?_eq_none {d : Disk} {path : String} :
    d.missing? path = none ↔ d.content (FilePath.parts path) ≠ none := by
  unfold missing?
  by_cases h : d.content (FilePath.parts path) = none
  · rw [if_pos h]
    exact ⟨fun hc => absurd hc (Option.some_ne_none _), fun hc => absurd h hc⟩
  · rw [if_neg h]
    exact ⟨fun _ => h, fun _ => rfl⟩

@[simp] theorem Disk.put_content_self (d : Disk) (path : String) (left : Option String) :
    (d.put path left).content (FilePath.parts path) = left :=
  Function.update_self _ _ _

theorem Disk.put_content_of_ne {d : Disk} {path : String} {left : Option String}
    {steps : List String} (h : steps ≠ FilePath.parts path) :
    (d.put path left).content steps = d.content steps :=
  Function.update_of_ne h _ _

/-! ## 2. Removing -/

/-- What is left where files were to be removed: nothing else has changed, and if no removal failed
    they are gone. -/
structure Disk.Tidied (f : Failures) (d : Disk) (paths : List (List String)) (d' : Disk) : Prop where
  counted : d.removes ≤ d'.removes
  kept : ∀ s, s ∉ paths → d'.content s = d.content s
  gone : (∀ i, d.removes ≤ i → i < d'.removes → f.remove i = none) →
    ∀ s ∈ paths, d'.content s = none

/-- What removals change. They put no file anywhere. -/
structure Disk.Cleared (f : Failures) (d : Disk) (paths : List (List String)) (d' : Disk) : Prop
    extends d.Tidied f paths d' where
  absent : ∀ s, d.content s = none → d'.content s = none

theorem Disk.Cleared.refl (d : Disk) : d.Cleared f [] d :=
  ⟨⟨Nat.le_refl _, fun _ _ => rfl, fun _ _ hs => absurd hs List.not_mem_nil⟩, fun _ h => h⟩

theorem Disk.Cleared.trans {d d₁ d₂ : Disk} {ps qs : List (List String)}
    (h₁ : d.Cleared f ps d₁) (h₂ : d₁.Cleared f qs d₂) : d.Cleared f (ps ++ qs) d₂ where
  counted := Nat.le_trans h₁.counted h₂.counted
  kept s hs := by
    rw [List.mem_append, not_or] at hs
    rw [h₂.kept s hs.2, h₁.kept s hs.1]
  gone hnone s hs := by
    have hc₁ := h₁.counted
    have hc₂ := h₂.counted
    rcases List.mem_append.mp hs with hs | hs
    · exact h₂.absent s (h₁.gone (fun i hi hlt => hnone i hi (by omega)) s hs)
    · exact h₂.gone (fun i hi hlt => hnone i (by omega) hlt) s hs
  absent s hs := h₂.absent s (h₁.absent s hs)

/-- Removals take care of more files if these are not there. -/
theorem Disk.Cleared.widen {d d' : Disk} {ps qs : List (List String)} (h : d.Cleared f ps d')
    (hsub : ∀ s ∈ ps, s ∈ qs) (hrest : ∀ s ∈ qs, s ∈ ps ∨ d.content s = none) :
    d.Tidied f qs d' where
  counted := h.counted
  kept s hs := h.kept s fun hp => hs (hsub s hp)
  gone hnone s hs := by
    rcases hrest s hs with hp | hempty
    · exact h.gone hnone s hp
    · exact h.absent s hempty

theorem remove_cleared (path : String) (d : Disk) :
    d.Cleared f [FilePath.parts path] ((f.files.remove path).run d).2 := by
  cases hfault : (f.remove d.removes).or (d.missing? path) with
  | none =>
    have hrun : ((f.files.remove path).run d).2 =
        { d with removes := d.removes + 1 }.put path none := by
      unfold Failures.files
      simp only [StateT.run_bind, StateT.run_get, pure_bind, hfault]
      rfl
    rw [hrun]
    refine ⟨⟨Nat.le_succ _, fun s hs => ?_, fun _ s hs => ?_⟩, fun s hs => ?_⟩
    · exact Disk.put_content_of_ne fun heq => hs (List.mem_singleton.mpr heq)
    · rw [List.mem_singleton.mp hs, Disk.put_content_self]
    · by_cases heq : s = FilePath.parts path
      · rw [heq, Disk.put_content_self]
      · exact (Disk.put_content_of_ne heq).trans hs
  | some fault =>
    have hrun : ((f.files.remove path).run d).2 = { d with removes := d.removes + 1 } := by
      unfold Failures.files
      simp only [StateT.run_bind, StateT.run_get, pure_bind, hfault]
      rfl
    rw [hrun]
    refine ⟨⟨Nat.le_succ _, fun _ _ => rfl, fun hnone s hs => ?_⟩, fun _ hs => hs⟩
    by_contra hcontent
    rw [List.mem_singleton.mp hs] at hcontent
    have hremove := hnone d.removes (Nat.le_refl _) (Nat.lt_succ_self _)
    have hthere : d.missing? path = none := Disk.missing?_eq_none.mpr hcontent
    rw [hremove, hthere] at hfault
    exact Option.some_ne_none _ hfault.symm

theorem discard_cleared (paths : List String) (d : Disk) :
    d.Cleared f (paths.map FilePath.parts) ((discard f.files paths).run d).2 := by
  induction paths generalizing d with
  | nil => exact .refl d
  | cons path rest ih =>
    have hrun : ((discard f.files (path :: rest)).run d).2 =
        ((discard f.files rest).run ((f.files.remove path).run d).2).2 := by
      rw [discard, StateT.run_bind]
      generalize (f.files.remove path).run d = p
      obtain ⟨r, d₁⟩ := p
      cases r <;> rfl
    rw [hrun]
    exact (remove_cleared path d).trans (ih _)

/-! ## 3. The first fault -/

/-- The steps of the path of a target. -/
def PendingWrite.target (w : PendingWrite) : List String := FilePath.parts w.path

/-- The steps of the path at which a target is staged. -/
def PendingWrite.staged (w : PendingWrite) : List String :=
  FilePath.parts (FilePath.staging w.path)

/-- The fault of the `i`th write from now on. -/
def Failures.writeFault (f : Failures) (d : Disk) (i : Nat) : Option FileFault :=
  (f.write (d.writes + i)).map Prod.fst

/-- The fault of the `i`th renaming from now on. -/
def Failures.renameFault (f : Failures) (d : Disk) (i : Nat) : Option FileFault :=
  f.rename (d.renames + i)

/-- The first of some calls that fails, one call for each target. -/
structure FirstFault (faults : Nat → Option FileFault) (ws : List PendingWrite) (i : Nat)
    (w : PendingWrite) (fault : FileFault) : Prop where
  here : ws[i]? = some w
  before : ∀ j < i, faults j = none
  fails : faults i = some fault

theorem all_none_succ {faults : Nat → Option FileFault} {n : Nat} (hfirst : faults 0 = none)
    (hrest : ∀ j < n, faults (j + 1) = none) : ∀ j < n + 1, faults j = none := by
  intro j hj
  cases j with
  | zero => exact hfirst
  | succ j => exact hrest j (Nat.lt_of_succ_lt_succ hj)

theorem FirstFault.cons {faults : Nat → Option FileFault} {ws : List PendingWrite} {i : Nat}
    {v w : PendingWrite} {fault : FileFault} (hfirst : faults 0 = none)
    (h : FirstFault (fun j => faults (j + 1)) ws i w fault) :
    FirstFault faults (v :: ws) (i + 1) w fault :=
  ⟨h.here, all_none_succ hfirst h.before, h.fails⟩

/-! ## 4. Staging -/

theorem run_write_none {path text : String} {d : Disk} (h : f.write d.writes = none) :
    (f.files.writeText path text).run d = (.ok (), d.written path (some text)) := by
  unfold Failures.files
  simp only [StateT.run_bind, StateT.run_get, pure_bind, h]
  rfl

theorem run_write_some {path text : String} {d : Disk} {fault : FileFault} {left : Option String}
    (h : f.write d.writes = some (fault, left)) :
    (f.files.writeText path text).run d = (.error fault, d.written path left) := by
  unfold Failures.files
  simp only [StateT.run_bind, StateT.run_get, pure_bind, h]
  rfl

theorem Disk.written_writeFault (d : Disk) (path : String) (left : Option String) :
    f.writeFault (d.written path left) = fun j => f.writeFault d (j + 1) := by
  funext j
  show (f.write (d.writes + 1 + j)).map Prod.fst = (f.write (d.writes + (j + 1))).map Prod.fst
  rw [Nat.add_assoc, Nat.add_comm 1 j]

/-- A write at one of the paths is part of what they are tidied of. -/
theorem Disk.Tidied.of_written {d d' : Disk} {path : String} {left : Option String}
    {paths : List (List String)} (h : (d.written path left).Tidied f paths d')
    (hpath : FilePath.parts path ∈ paths) : d.Tidied f paths d' where
  counted := h.counted
  kept s hs := (h.kept s hs).trans (Disk.put_content_of_ne fun heq => hs (heq ▸ hpath))
  gone := h.gone

/-- What is left when every file could be staged. -/
structure Disk.Staged (f : Failures) (d : Disk) (ws : List PendingWrite) (d' : Disk) : Prop where
  faultless : ∀ j < ws.length, f.writeFault d j = none
  removes : d'.removes = d.removes
  renames : d'.renames = d.renames
  texts : ∀ w ∈ ws, d'.content w.staged = some w.text
  kept : ∀ s, s ∉ ws.map PendingWrite.staged → d'.content s = d.content s

theorem Disk.Staged.nil (d : Disk) : d.Staged f [] d where
  faultless j hj := absurd hj (Nat.not_lt_zero j)
  removes := rfl
  renames := rfl
  texts _ hw := absurd hw List.not_mem_nil
  kept _ _ := rfl

theorem Disk.Staged.cons {d d' : Disk} {w : PendingWrite} {ws : List PendingWrite}
    (hfirst : f.writeFault d 0 = none) (hw : w.staged ∉ ws.map PendingWrite.staged)
    (h : (d.written (FilePath.staging w.path) (some w.text)).Staged f ws d') :
    d.Staged f (w :: ws) d' where
  faultless := by
    have hrest := h.faultless
    rw [Disk.written_writeFault] at hrest
    exact all_none_succ hfirst hrest
  removes := h.removes
  renames := h.renames
  texts v hv := by
    rcases List.mem_cons.mp hv with rfl | hv
    · exact (h.kept _ hw).trans (Disk.put_content_self _ _ _)
    · exact h.texts v hv
  kept s hs := by
    rw [List.map_cons, List.mem_cons, not_or] at hs
    exact (h.kept s hs.2).trans (Disk.put_content_of_ne hs.1)

theorem run_present_written (path : String) (left : Option String) (d : Disk) :
    (f.files.present path).run (d.written path left) = (left.isSome, d.written path left) := by
  show (((d.written path left).content (FilePath.parts path)).isSome, d.written path left) = _
  rw [Disk.written, Disk.put_content_self]

/-- The paths that are removed if a file could not be staged: those staged before it, and its own if
    something is left there. -/
theorem mem_map_leftover {left : Option String} {staged : List String} {path : String}
    {s : List String} :
    s ∈ (if left.isSome then staged ++ [path] else staged).map FilePath.parts ↔
      s ∈ staged.map FilePath.parts ∨ (left ≠ none ∧ s = FilePath.parts path) := by
  cases left with
  | none => simp
  | some text => simp

theorem discard_unwritten {w : PendingWrite} {ws : List PendingWrite} {staged : List String}
    {d : Disk} {left : Option String}
    (hfresh : ∀ v ∈ ws, (d.written (FilePath.staging w.path) left).content v.staged = none) :
    d.Tidied f (staged.map FilePath.parts ++ (w :: ws).map PendingWrite.staged)
      ((discard f.files (if left.isSome then staged ++ [FilePath.staging w.path] else staged)).run
        (d.written (FilePath.staging w.path) left)).2 := by
  have hmem : FilePath.parts (FilePath.staging w.path) ∈
      staged.map FilePath.parts ++ (w :: ws).map PendingWrite.staged :=
    List.mem_append_right _ List.mem_cons_self
  refine ((discard_cleared _ _).widen (fun s hs => ?_) (fun s hs => ?_)).of_written hmem
  · rcases mem_map_leftover.mp hs with hs | ⟨-, rfl⟩
    · exact List.mem_append_left _ hs
    · exact hmem
  · rw [mem_map_leftover]
    rcases List.mem_append.mp hs with hs | hs
    · exact .inl (.inl hs)
    · rcases List.mem_cons.mp hs with rfl | hs
      · by_cases hleft : left = none
        · exact .inr ((Disk.put_content_self _ _ _).trans hleft)
        · exact .inl (.inr ⟨hleft, rfl⟩)
      · obtain ⟨v, hv, rfl⟩ := List.mem_map.mp hs
        exact .inr (hfresh v hv)

/-- Staging writes every file, or removes what it wrote. -/
theorem stageAll_staged (ws : List PendingWrite) (staged : List String) (d : Disk)
    (hnodup : (ws.map PendingWrite.staged).Nodup) (hfresh : ∀ w ∈ ws, d.content w.staged = none) :
    ∃ r d', (stageAll f.files staged ws).run d = (r, d') ∧
      ((r = .ok () ∧ d.Staged f ws d') ∨
        ∃ i w fault, FirstFault (f.writeFault d) ws i w fault ∧
          r = .error (.file ("writing " ++ w.path) fault) ∧
          d.Tidied f (staged.map FilePath.parts ++ ws.map PendingWrite.staged) d') := by
  induction ws generalizing staged d with
  | nil => exact ⟨.ok (), d, rfl, .inl ⟨rfl, .nil d⟩⟩
  | cons w ws ih =>
    rw [List.map_cons, List.nodup_cons] at hnodup
    obtain ⟨hw, hnodup⟩ := hnodup
    have hfresh' (left : Option String) (v : PendingWrite) (hv : v ∈ ws) :
        (d.written (FilePath.staging w.path) left).content v.staged = none := by
      have hne : v.staged ≠ w.staged := fun heq => hw (heq ▸ List.mem_map_of_mem hv)
      exact (Disk.put_content_of_ne hne).trans (hfresh v (List.mem_cons_of_mem w hv))
    cases hwrite : f.write d.writes with
    | none =>
      have hrun : (stageAll f.files staged (w :: ws)).run d =
          (stageAll f.files (staged ++ [FilePath.staging w.path]) ws).run
            (d.written (FilePath.staging w.path) (some w.text)) := by
        rw [stageAll, StateT.run_bind, run_write_none hwrite]
        rfl
      have hfirst : f.writeFault d 0 = none := by
        unfold Failures.writeFault
        rw [Nat.add_zero, hwrite]
        rfl
      obtain ⟨r, d', hrest, hcases⟩ := ih (staged ++ [FilePath.staging w.path])
        (d.written (FilePath.staging w.path) (some w.text)) hnodup (hfresh' _)
      refine ⟨r, d', hrun.trans hrest, ?_⟩
      rcases hcases with ⟨hr, hstaged⟩ | ⟨i, v, fault, hfault, hr, htidied⟩
      · exact .inl ⟨hr, .cons hfirst hw hstaged⟩
      · refine .inr ⟨i + 1, v, fault, ?_, hr, ?_⟩
        · rw [Disk.written_writeFault] at hfault
          exact .cons hfirst hfault
        · rw [List.map_append, List.append_assoc] at htidied
          exact htidied.of_written (List.mem_append_right _ List.mem_cons_self)
    | some failed =>
      obtain ⟨fault, left⟩ := failed
      have hrun : (stageAll f.files staged (w :: ws)).run d =
          (.error (.file ("writing " ++ w.path) fault),
            ((discard f.files
              (if left.isSome then staged ++ [FilePath.staging w.path] else staged)).run
                (d.written (FilePath.staging w.path) left)).2) := by
        rw [stageAll, StateT.run_bind, run_write_some hwrite]
        show (f.files.present (FilePath.staging w.path) >>= _).run (d.written _ left) = _
        rw [StateT.run_bind, run_present_written]
        rfl
      refine ⟨_, _, hrun, .inr ⟨0, w, fault, ⟨rfl, ?_, ?_⟩, rfl, discard_unwritten (hfresh' left)⟩⟩
      · exact fun j hj => absurd hj (Nat.not_lt_zero j)
      · unfold Failures.writeFault
        rw [Nat.add_zero, hwrite]
        rfl

/-! ## 5. Replacing -/

theorem run_rename_none {source target : String} {d : Disk} (h : f.rename d.renames = none)
    (hthere : d.content (FilePath.parts source) ≠ none) :
    (f.files.rename source target).run d = (.ok (), d.moved source target) := by
  have hmissing : d.missing? source = none := Disk.missing?_eq_none.mpr hthere
  unfold Failures.files
  simp only [StateT.run_bind, StateT.run_get, pure_bind, h, hmissing]
  rfl

theorem run_rename_some {source target : String} {d : Disk} {fault : FileFault}
    (h : f.rename d.renames = some fault) :
    (f.files.rename source target).run d =
      (.error fault, { d with renames := d.renames + 1 }) := by
  unfold Failures.files
  simp only [StateT.run_bind, StateT.run_get, pure_bind, h]
  rfl

theorem Disk.moved_renameFault (d : Disk) (source target : String) :
    f.renameFault (d.moved source target) = fun j => f.renameFault d (j + 1) := by
  funext j
  show f.rename (d.renames + 1 + j) = f.rename (d.renames + (j + 1))
  rw [Nat.add_assoc, Nat.add_comm 1 j]

theorem Disk.moved_content_target (d : Disk) (source target : String) :
    (d.moved source target).content (FilePath.parts target) = d.content (FilePath.parts source) :=
  Disk.put_content_self _ _ _

theorem Disk.moved_content_source {d : Disk} {source target : String}
    (h : FilePath.parts source ≠ FilePath.parts target) :
    (d.moved source target).content (FilePath.parts source) = none :=
  (Disk.put_content_of_ne h).trans (Disk.put_content_self _ _ _)

theorem Disk.moved_content_of_ne {d : Disk} {source target : String} {s : List String}
    (hsource : s ≠ FilePath.parts source) (htarget : s ≠ FilePath.parts target) :
    (d.moved source target).content s = d.content s :=
  (Disk.put_content_of_ne htarget).trans (Disk.put_content_of_ne hsource)

/-- Targets and staged files stand apart. -/
structure Apart (ws : List PendingWrite) : Prop where
  targets : (ws.map PendingWrite.target).Nodup
  staged : (ws.map PendingWrite.staged).Nodup
  between : ∀ v ∈ ws, ∀ w ∈ ws, v.staged ≠ w.target

/-- What is left when the first `n` targets were replaced. -/
structure Disk.Replaced (f : Failures) (d : Disk) (ws : List PendingWrite) (n : Nat)
    (d' : Disk) : Prop where
  counted : d.removes ≤ d'.removes
  texts : ∀ w ∈ ws.take n, d'.content w.target = some w.text
  kept : ∀ s, s ∉ ws.map PendingWrite.staged → s ∉ (ws.take n).map PendingWrite.target →
    d'.content s = d.content s
  gone : (∀ i, d.removes ≤ i → i < d'.removes → f.remove i = none) →
    ∀ w ∈ ws, d'.content w.staged = none

theorem Apart.tail {w : PendingWrite} {ws : List PendingWrite} (h : Apart (w :: ws)) :
    Apart ws where
  targets := (List.nodup_cons.mp h.targets).2
  staged := (List.nodup_cons.mp h.staged).2
  between v hv x hx := h.between v (List.mem_cons_of_mem w hv) x (List.mem_cons_of_mem w hx)

theorem Disk.Replaced.cons {d d' : Disk} {w : PendingWrite} {ws : List PendingWrite} {n : Nat}
    (hapart : Apart (w :: ws)) (htext : d.content w.staged = some w.text)
    (h : (d.moved (FilePath.staging w.path) w.path).Replaced f ws n d') :
    d.Replaced f (w :: ws) (n + 1) d' := by
  have htarget : w.target ∉ (ws.take n).map PendingWrite.target := fun hmem =>
    (List.nodup_cons.mp hapart.targets).1 (((List.take_sublist n ws).map _).subset hmem)
  have hstaged : w.staged ∉ ws.map PendingWrite.staged := (List.nodup_cons.mp hapart.staged).1
  have htarget' : w.target ∉ ws.map PendingWrite.staged := fun hmem => by
    obtain ⟨v, hv, heq⟩ := List.mem_map.mp hmem
    exact hapart.between v (List.mem_cons_of_mem w hv) w List.mem_cons_self heq
  have hstaged' : w.staged ∉ (ws.take n).map PendingWrite.target := fun hmem => by
    obtain ⟨v, hv, heq⟩ := List.mem_map.mp hmem
    exact hapart.between w List.mem_cons_self v
      (List.mem_cons_of_mem w (List.mem_of_mem_take hv)) heq.symm
  have hne : w.staged ≠ w.target := hapart.between w List.mem_cons_self w List.mem_cons_self
  refine ⟨h.counted, fun v hv => ?_, fun s hs ht => ?_, fun hnone v hv => ?_⟩
  · rcases List.mem_cons.mp hv with rfl | hv
    · rw [h.kept _ htarget' htarget]
      exact (Disk.moved_content_target _ _ _).trans htext
    · exact h.texts v hv
  · rw [List.map_cons, List.mem_cons, not_or] at hs
    rw [List.take_succ_cons, List.map_cons, List.mem_cons, not_or] at ht
    rw [h.kept s hs.2 ht.2]
    exact Disk.moved_content_of_ne hs.1 ht.1
  · rcases List.mem_cons.mp hv with rfl | hv
    · rw [h.kept _ hstaged hstaged']
      exact Disk.moved_content_source hne
    · exact h.gone hnone v hv

/-- Targets are replaced in order up to the first fault. -/
theorem replaceAll_replaced (ws : List PendingWrite) (d : Disk) (hapart : Apart ws)
    (htexts : ∀ w ∈ ws, d.content w.staged = some w.text) :
    ∃ n r d', (replaceAll f.files ws).run d = (r, d') ∧ d.Replaced f ws n d' ∧
      ((r = .ok () ∧ n = ws.length ∧ ∀ j < ws.length, f.renameFault d j = none) ∨
        ∃ w fault, FirstFault (f.renameFault d) ws n w fault ∧
          r = .error (.file ("replacing " ++ w.path) fault)) := by
  induction ws generalizing d with
  | nil =>
    refine ⟨0, .ok (), d, rfl, ⟨Nat.le_refl _, ?_, fun _ _ _ => rfl, ?_⟩, .inl ⟨rfl, rfl, ?_⟩⟩
    · exact fun _ hw => absurd hw List.not_mem_nil
    · exact fun _ _ hw => absurd hw List.not_mem_nil
    · exact fun j hj => absurd hj (Nat.not_lt_zero j)
  | cons w ws ih =>
    have htext := htexts w List.mem_cons_self
    cases hrename : f.rename d.renames with
    | none =>
      have hthere : d.content w.staged ≠ none := by
        rw [htext]
        exact Option.some_ne_none _
      have hrun : (replaceAll f.files (w :: ws)).run d =
          (replaceAll f.files ws).run (d.moved (FilePath.staging w.path) w.path) := by
        rw [replaceAll, StateT.run_bind, run_rename_none hrename hthere]
        rfl
      have hfirst : f.renameFault d 0 = none := hrename
      have htexts' (v : PendingWrite) (hv : v ∈ ws) :
          (d.moved (FilePath.staging w.path) w.path).content v.staged = some v.text := by
        have hmem := List.mem_cons_of_mem w hv
        have hne : v.staged ≠ w.staged := fun heq =>
          (List.nodup_cons.mp hapart.staged).1 (heq ▸ List.mem_map_of_mem hv)
        exact (Disk.moved_content_of_ne hne (hapart.between v hmem w List.mem_cons_self)).trans
          (htexts v hmem)
      obtain ⟨n, r, d', hrest, hreplaced, hcases⟩ := ih _ hapart.tail htexts'
      refine ⟨n + 1, r, d', hrun.trans hrest, hreplaced.cons hapart htext, ?_⟩
      rw [Disk.moved_renameFault] at hcases
      rcases hcases with ⟨hr, hn, hnone⟩ | ⟨v, fault, hfault, hr⟩
      · exact .inl ⟨hr, congrArg Nat.succ hn, all_none_succ hfirst hnone⟩
      · exact .inr ⟨v, fault, .cons hfirst hfault, hr⟩
    | some fault =>
      have hrun : (replaceAll f.files (w :: ws)).run d =
          (.error (.file ("replacing " ++ w.path) fault),
            ((discard f.files ((w :: ws).map fun x => FilePath.staging x.path)).run
              { d with renames := d.renames + 1 }).2) := by
        rw [replaceAll, StateT.run_bind, run_rename_some hrename]
        rfl
      have hclear := discard_cleared (f := f) ((w :: ws).map fun x => FilePath.staging x.path)
        { d with renames := d.renames + 1 }
      rw [List.map_map] at hclear
      refine ⟨0, _, _, hrun, ⟨hclear.counted, ?_, ?_, ?_⟩, .inr ⟨w, fault, ⟨rfl, ?_, hrename⟩, rfl⟩⟩
      · exact fun v hv => absurd hv List.not_mem_nil
      · exact fun s hs _ => hclear.kept s hs
      · exact fun hnone v hv => hclear.gone hnone v.staged (List.mem_map_of_mem hv)
      · exact fun j hj => absurd hj (Nat.not_lt_zero j)

/-! ## 6. Committing -/

/-- How a commit ends that replaced `n` targets. -/
inductive CommitOutcome (f : Failures) (d : Disk) (ws : List PendingWrite) :
    Nat → Except OutputError Unit → Prop where
  | done (hwrites : ∀ j < ws.length, f.writeFault d j = none)
      (hrenames : ∀ j < ws.length, f.renameFault d j = none) : CommitOutcome f d ws ws.length (.ok ())
  | unwritten {i : Nat} {w : PendingWrite} {fault : FileFault}
      (hfault : FirstFault (f.writeFault d) ws i w fault) :
      CommitOutcome f d ws 0 (.error (.file ("writing " ++ w.path) fault))
  | unreplaced {n : Nat} {w : PendingWrite} {fault : FileFault}
      (hwrites : ∀ j < ws.length, f.writeFault d j = none)
      (hfault : FirstFault (f.renameFault d) ws n w fault) :
      CommitOutcome f d ws n (.error (.file ("replacing " ++ w.path) fault))

/-- What a commit leaves that replaced `n` targets. -/
structure Disk.Committed (f : Failures) (d : Disk) (ws : List PendingWrite) (n : Nat)
    (d' : Disk) : Prop where
  replaced : ∀ w ∈ ws.take n, d'.content w.target = some w.text
  unreplaced : ∀ w ∈ ws.drop n, d'.content w.target = d.content w.target
  others : ∀ s, s ∉ ws.map PendingWrite.staged → s ∉ ws.map PendingWrite.target →
    d'.content s = d.content s
  cleared : (∀ i, d.removes ≤ i → i < d'.removes → f.remove i = none) →
    ∀ w ∈ ws, d'.content w.staged = none

theorem apart_of_distinct {ws : List PendingWrite}
    (hdistinct : (ws.map PendingWrite.target).Nodup)
    (hstaging : ∀ v ∈ ws, ∀ w ∈ ws, v ≠ w → v.staged ≠ w.target) : Apart ws where
  targets := hdistinct
  staged := List.pairwise_map.mpr ((List.pairwise_map.mp hdistinct).imp fun hne heq =>
    hne (FilePath.parts_eq_of_parts_staging_eq heq))
  between v hv w hw := by
    by_cases hvw : v = w
    · rw [hvw]
      exact FilePath.parts_staging_ne w.path
    · exact hstaging v hv w hw hvw

theorem Apart.target_not_mem_take {ws : List PendingWrite} (h : Apart ws) {n : Nat}
    {w : PendingWrite} (hw : w ∈ ws.drop n) : w.target ∉ (ws.take n).map PendingWrite.target := by
  have hnodup := h.targets
  rw [← List.take_append_drop n ws, List.map_append, List.nodup_append] at hnodup
  exact fun hmem => hnodup.2.2 _ hmem _ (List.mem_map_of_mem hw) rfl

theorem Apart.target_not_mem_staged {ws : List PendingWrite} (h : Apart ws) {w : PendingWrite}
    (hw : w ∈ ws) : w.target ∉ ws.map PendingWrite.staged := by
  intro hmem
  obtain ⟨v, hv, heq⟩ := List.mem_map.mp hmem
  exact h.between v hv w hw heq

/-- **A commit replaces the targets in order up to the first fault.** If a file cannot be staged no
    target changes. If one cannot be replaced those before it stay replaced, and those from it on
    keep what they hold. In every case the staged files are removed. -/
theorem commit_replaces (f : Failures) (ws : List PendingWrite) (d : Disk)
    (hdistinct : (ws.map PendingWrite.target).Nodup)
    (hstaging : ∀ v ∈ ws, ∀ w ∈ ws, v ≠ w → v.staged ≠ w.target)
    (hfresh : ∀ w ∈ ws, d.content w.staged = none) :
    ∃ n r d', (commit f.files ws).run d = (r, d') ∧ CommitOutcome f d ws n r ∧
      d.Committed f ws n d' := by
  have hapart := apart_of_distinct hdistinct hstaging
  obtain ⟨r, d₁, hstage, hcases⟩ := stageAll_staged (f := f) ws [] d hapart.staged hfresh
  rcases hcases with ⟨rfl, hstaged⟩ | ⟨i, w, fault, hfault, rfl, htidied⟩
  · -- every file was staged
    obtain ⟨n, r, d', hreplace, hreplaced, hcases⟩ :=
      replaceAll_replaced (f := f) ws d₁ hapart hstaged.texts
    have hrun : (commit f.files ws).run d = (r, d') := by
      rw [commit, StateT.run_bind, hstage]
      exact hreplace
    have hfaults : f.renameFault d₁ = f.renameFault d := by
      unfold Failures.renameFault
      rw [hstaged.renames]
    have hkept (s : List String) (hs : s ∉ ws.map PendingWrite.staged)
        (ht : s ∉ (ws.take n).map PendingWrite.target) : d'.content s = d.content s :=
      (hreplaced.kept s hs ht).trans (hstaged.kept s hs)
    rw [hfaults] at hcases
    refine ⟨n, r, d', hrun, ?_, hreplaced.texts, fun w hw => ?_, fun s hs ht => ?_, ?_⟩
    · rcases hcases with ⟨rfl, rfl, hnone⟩ | ⟨w, fault, hfault, rfl⟩
      · exact .done hstaged.faultless hnone
      · exact .unreplaced hstaged.faultless hfault
    · exact hkept w.target (hapart.target_not_mem_staged (List.mem_of_mem_drop hw))
        (hapart.target_not_mem_take hw)
    · exact hkept s hs fun hmem => ht (((List.take_sublist n ws).map _).subset hmem)
    · rw [← hstaged.removes]
      exact hreplaced.gone
  · -- a file could not be staged
    have hrun : (commit f.files ws).run d =
        (.error (.file ("writing " ++ w.path) fault), d₁) := by
      rw [commit, StateT.run_bind, hstage]
      rfl
    refine ⟨0, _, d₁, hrun, .unwritten hfault, ?_, fun v hv => ?_, fun s hs _ => ?_, ?_⟩
    · exact fun v hv => absurd hv List.not_mem_nil
    · exact htidied.kept _ (hapart.target_not_mem_staged hv)
    · exact htidied.kept s hs
    · exact fun hnone v hv => htidied.gone hnone _ (List.mem_map_of_mem hv)

end

/-! ## 7. A commit that is torn -/

/-- Two files to be replaced. -/
def twoWrites : List PendingWrite := [⟨"a", "new"⟩, ⟨"b", "new"⟩]

/-- The disk on which both are there. -/
def twoFiles : Disk := ⟨fun s => if s = ["a"] ∨ s = ["b"] then some "old" else none, 0, 0, 0⟩

/-- The second renaming fails. -/
def secondRenameFails : Failures :=
  ⟨fun _ => none, fun i => if i = 1 then some .isDirectory else none, fun _ => none⟩

theorem commit_replaces_twoWrites :
    (twoWrites.map PendingWrite.target).Nodup ∧
      (∀ v ∈ twoWrites, ∀ w ∈ twoWrites, v ≠ w → v.staged ≠ w.target) ∧
      (∀ w ∈ twoWrites, twoFiles.content w.staged = none) ∧
      ∃ n r d', (commit secondRenameFails.files twoWrites).run twoFiles = (r, d') ∧
        CommitOutcome secondRenameFails twoFiles twoWrites n r ∧
        twoFiles.Committed secondRenameFails twoWrites n d' := by
  have hdistinct : (twoWrites.map PendingWrite.target).Nodup := by decide
  have hstaging : ∀ v ∈ twoWrites, ∀ w ∈ twoWrites, v ≠ w → v.staged ≠ w.target := by decide
  have hfresh : ∀ w ∈ twoWrites, twoFiles.content w.staged = none := by decide
  exact ⟨hdistinct, hstaging, hfresh,
    commit_replaces secondRenameFails twoWrites twoFiles hdistinct hstaging hfresh⟩

/-- The commit fails although the first target has its new text. -/
theorem commit_torn :
    (twoWrites.map PendingWrite.target).Nodup ∧
      (∀ v ∈ twoWrites, ∀ w ∈ twoWrites, v ≠ w → v.staged ≠ w.target) ∧
      (∀ w ∈ twoWrites, twoFiles.content w.staged = none) ∧
      ((commit secondRenameFails.files twoWrites).run twoFiles).1 =
        .error (.file "replacing b" .isDirectory) ∧
      twoFiles.content ["a"] = some "old" ∧
      ((commit secondRenameFails.files twoWrites).run twoFiles).2.content ["a"] = some "new" := by
  refine ⟨by decide, by decide, by decide, ?_, by decide, ?_⟩
  · rfl
  · rfl

end Sm83Codegen
