import Sm83Codegen.FilePath

/-!
# The sibling at which a file is staged

A staged file stands beside its target: its path has the steps of the target, the last name with the
suffix. So two targets are staged at one path only if they are the same path, and no target is staged
at itself.

* `FilePath.parts_eq` -- the steps of a path: where it starts, then its names;
* `FilePath.parts_join`, `FilePath.parts_parent` -- a name below a path, and a path without its last
  name;
* `FilePath.parts_staging` -- the steps of a staging path;
* `FilePath.parts_eq_of_parts_staging_eq`, `FilePath.parts_staging_ne` -- staging paths differ from
  each other and from their targets.
-/

namespace Sm83Codegen

namespace FilePath

/-! ## 1. Steps -/

/-- The pieces of a path. -/
abbrev between (cs : List Char) : List (List Char) := Text.pieces (fun c => c == '/') cs

/-- The step at the start of a path that is no name: the root, or a dot. -/
def start (cs : List Char) : List String :=
  if cs.head? = some '/' then ["/"]
  else if (between cs).head? = some ['.'] then ["."]
  else []

/-- The names along a path. -/
def names (cs : List Char) : List String := ((between cs).map String.ofList).filter isStep

/-- The steps along the characters of a path. -/
def steps (cs : List Char) : List String := start cs ++ names cs

theorem parts_eq (path : String) : parts path = steps path.toList := by
  unfold parts steps start names isAbsolute
  by_cases habs : path.toList.head? = some '/'
  · rw [if_pos habs, if_pos (beq_iff_eq.mpr habs)]
    rfl
  · rw [if_neg habs, if_neg fun h => habs (beq_iff_eq.mp h)]
    obtain ⟨p, ps, hp⟩ := Text.exists_pieces (fun c => c == '/') path.toList
    have hb : between path.toList = p :: ps := hp
    simp only [hb, List.map_cons, List.head?_cons, Option.some.injEq]
    by_cases hdot : p = ['.']
    · subst hdot
      rfl
    · have hne : String.ofList p ≠ "." := fun h => hdot (by
        rw [← String.toList_ofList (l := p), h]
        rfl)
      rw [if_neg hdot]
      split
      · next heq =>
        exact absurd (List.cons.inj heq).1 hne
      · rfl

/-- A slash ends the pieces before it. Behind it stand names only. -/
theorem steps_append_slash {bs : List Char} (cs : List Char) :
    steps (bs ++ '/' :: cs) = steps (bs ++ ['/']) ++ names cs := by
  have hstart : start (bs ++ '/' :: cs) = start (bs ++ ['/']) := by
    cases bs with
    | nil => rfl
    | cons b bs =>
      obtain ⟨p, ps, hp⟩ := Text.exists_pieces (fun c => c == '/') (b :: bs)
      unfold start between
      rw [Text.pieces_append_cons rfl, Text.pieces_append_cons rfl, hp]
      rfl
  have hnames : names (bs ++ '/' :: cs) = names (bs ++ ['/']) ++ names cs := by
    unfold names between
    rw [Text.pieces_append_cons rfl, Text.pieces_append_cons rfl, List.map_append, List.map_append,
      List.filter_append, List.filter_append]
    simp [Text.pieces, isStep]
  rw [steps, hstart, hnames, ← List.append_assoc]
  rfl

theorem steps_append_end {bs : List Char} (hbs : bs ≠ []) : steps (bs ++ ['/']) = steps bs := by
  have hpieces : between (bs ++ ['/']) = between bs ++ [[]] := Text.pieces_append_cons rfl bs []
  have hstart : start (bs ++ ['/']) = start bs := by
    obtain ⟨b, cs, rfl⟩ := List.exists_cons_of_ne_nil hbs
    obtain ⟨p, ps, hp⟩ := Text.exists_pieces (fun c => c == '/') (b :: cs)
    unfold start
    rw [hpieces, show between (b :: cs) = p :: ps from hp]
    rfl
  have hnames : names (bs ++ ['/']) = names bs := by
    unfold names
    rw [hpieces, List.map_append, List.filter_append]
    exact List.append_nil _
  rw [steps, hstart, hnames]
  rfl

/-! ## 2. Names -/

/-- A text that is a step wherever it stands in a path. -/
structure IsName (name : String) : Prop where
  plain : '/' ∉ name.toList
  step : isStep name = true

theorem isName_ofList {cs : List Char} (hslash : '/' ∉ cs) (hempty : cs ≠ []) (hdot : cs ≠ ['.']) :
    IsName (String.ofList cs) := by
  have hstep : isStep (String.ofList cs) = true := by
    have h₁ : String.ofList cs ≠ "" := fun h => hempty (String.ofList_eq_empty_iff.mp h)
    have h₂ : String.ofList cs ≠ "." := fun h => hdot (String.ofList_injective h)
    unfold isStep
    rw [bne_iff_ne.mpr h₁, bne_iff_ne.mpr h₂]
    rfl
  exact ⟨by rwa [String.toList_ofList], hstep⟩

theorem IsName.between {name : String} (h : IsName name) : between name.toList = [name.toList] :=
  Text.pieces_of_none fun _ hc => beq_eq_false_iff_ne.mpr fun heq => h.plain (heq ▸ hc)

theorem IsName.names {name : String} (h : IsName name) : names name.toList = [name] := by
  unfold FilePath.names
  rw [h.between, List.map_singleton, String.ofList_toList, List.filter_cons_of_pos h.step]
  rfl

theorem IsName.parts {name : String} (h : IsName name) : parts name = [name] := by
  have hslash : ¬name.toList.head? = some '/' := fun hc => h.plain (List.mem_of_head? hc)
  have hdot : ¬(FilePath.between name.toList).head? = some ['.'] := by
    rw [h.between]
    intro hc
    have hname : name = "." := by
      rw [← String.ofList_toList (s := name), Option.some.inj hc]
    have hstep := h.step
    rw [hname] at hstep
    exact Bool.false_ne_true hstep
  rw [parts_eq, steps, start, if_neg hslash, if_neg hdot, h.names]
  rfl

theorem IsName.steps_append {name : String} (h : IsName name) (bs : List Char) :
    steps (bs ++ '/' :: name.toList) = steps (bs ++ ['/']) ++ [name] := by
  rw [steps_append_slash, h.names]

/-- A name that is joined to a path is its last step. -/
theorem parts_join (path : String) {name : String} (h : IsName name) :
    parts (join path name) = parts path ++ [name] := by
  unfold join
  by_cases hempty : path.isEmpty = true
  · rw [if_pos hempty, String.isEmpty_iff.mp hempty, h.parts]
    rfl
  · rw [if_neg hempty]
    by_cases hslash : (path.toList.getLast? == some '/') = true
    · obtain ⟨bs, hbs⟩ := List.getLast?_eq_some_iff.mp (beq_iff_eq.mp hslash)
      rw [if_pos hslash, parts_eq, parts_eq, String.toList_append, hbs, List.append_assoc]
      exact h.steps_append _
    · have hne : path.toList ≠ [] := fun hnil =>
        hempty (String.isEmpty_iff.mpr (String.toList_eq_nil_iff.mp hnil))
      rw [if_neg hslash, parts_eq, parts_eq, String.toList_append, String.toList_append,
        List.append_assoc, ← steps_append_end hne]
      exact h.steps_append _

/-! ## 3. A path without its last name -/

/-- Slashes and dots at the end of a path are no names. -/
theorem steps_bareEnd (cs : List Char) : steps (bareEnd cs).reverse = steps cs.reverse := by
  fun_induction bareEnd cs with
  | case1 => rfl
  | case2 cs hne ih =>
    have hcs : cs.reverse ≠ [] := fun h => hne (List.reverse_eq_nil_iff.mp h)
    rw [ih, List.reverse_cons, steps_append_end hcs]
  | case3 cs ih =>
    rw [ih, List.reverse_cons, List.reverse_cons, List.reverse_cons, List.append_assoc]
    exact ((steps_append_slash ['.']).trans (List.append_nil _)).symm
  | case4 cs _ _ _ => rfl

theorem bareEnd_slash {cs rest : List Char} (h : bareEnd cs = '/' :: rest) : rest = [] := by
  fun_induction bareEnd cs with
  | case1 => exact (List.cons.inj h).2.symm
  | case2 cs hne ih => exact ih h
  | case3 cs ih => exact ih h
  | case4 cs hroot hslash hdot => exact absurd h (hslash rest)

theorem bareEnd_dot {cs rest : List Char} : bareEnd cs ≠ '.' :: '/' :: rest := by
  fun_induction bareEnd cs with
  | case1 => exact fun h => absurd (List.cons.inj h).1 (by decide)
  | case2 cs hne ih => exact ih
  | case3 cs ih => exact ih
  | case4 cs hroot hslash hdot => exact hdot rest

theorem fileName?_eq_some {path name : String} (h : fileName? path = some name) :
    (parts path).getLast? = some name ∧ name ≠ "/" ∧ name ≠ "." := by
  unfold fileName? at h
  split at h
  · exact absurd h (by simp)
  · exact absurd h (by simp)
  · exact absurd h (by simp)
  · exact absurd h (by simp)
  · next last hroot hdot _ hlast =>
    obtain rfl := Option.some.inj h
    exact ⟨hlast, fun he => hroot (he ▸ rfl), fun he => hdot (he ▸ rfl)⟩

/-- What stands behind the last slash of a text, and what stands up to it, last character first. -/
theorem exists_lastPiece (cs : List Char) :
    ∃ last rest, '/' ∉ last ∧ cs = last ++ rest ∧ cs.dropWhile (fun c => c != '/') = rest ∧
      (rest = [] ∨ ∃ above, rest = '/' :: above) := by
  refine ⟨cs.takeWhile (fun c => c != '/'), cs.dropWhile (fun c => c != '/'), ?_,
    List.takeWhile_append_dropWhile.symm, rfl, ?_⟩
  · intro hc
    have hall : (cs.takeWhile (fun c => c != '/')).all (fun c => c != '/') = true :=
      List.all_takeWhile
    exact bne_iff_ne.mp (List.all_eq_true.mp hall '/' hc) rfl
  · cases hrest : cs.dropWhile (fun c => c != '/') with
    | nil => exact .inl rfl
    | cons c above =>
      have hc : (c != '/') = false := by
        have hhead := List.head?_dropWhile_not (fun c => c != '/') cs
        rw [hrest] at hhead
        exact hhead
      rw [bne_eq_false_iff_eq.mp hc]
      exact .inr ⟨above, rfl⟩

/-- A path that ends in a name leads to that name below its parent. -/
theorem parts_parent {path name : String} (h : fileName? path = some name) :
    IsName name ∧ parts path = parts (parent path) ++ [name] := by
  obtain ⟨hlast, hroot, hdot⟩ := fileName?_eq_some h
  obtain ⟨last, rest, hplain, hbare, hrest, hcases⟩ :=
    exists_lastPiece (bareEnd path.toList.reverse)
  have hpath : parts path = steps (last ++ rest).reverse := by
    rw [← hbare, steps_bareEnd, List.reverse_reverse, parts_eq]
  have hparent : parts (parent path) = steps rest.reverse := by
    rw [parts_eq, parent, String.toList_ofList, hrest, steps_bareEnd]
  have hslash : '/' ∉ last.reverse := fun hc => hplain (List.mem_reverse.mp hc)
  rcases hcases with rfl | ⟨above, rfl⟩
  · -- no slash: the name is the whole path
    rw [List.append_nil] at hpath
    have hempty : last.reverse ≠ [] := fun hnil => by
      rw [hpath, hnil] at hlast
      exact Option.some_ne_none name hlast.symm
    have hone : last.reverse ≠ ['.'] := fun heq => by
      rw [hpath, heq] at hlast
      exact hdot (Option.some.inj hlast).symm
    have hname := isName_ofList hslash hempty hone
    have hparts := hname.parts
    rw [parts_eq, String.toList_ofList, ← hpath] at hparts
    rw [hparts] at hlast
    obtain rfl := Option.some.inj hlast
    exact ⟨hname, by rw [hparts, hparent]; rfl⟩
  · have hempty : last.reverse ≠ [] := fun hnil => by
      obtain rfl := List.reverse_eq_nil_iff.mp hnil
      obtain rfl := bareEnd_slash hbare
      rw [hpath] at hlast
      exact hroot (Option.some.inj hlast).symm
    have hone : last.reverse ≠ ['.'] := fun heq => by
      obtain rfl := List.reverse_eq_iff.mp heq
      exact bareEnd_dot hbare
    have hname := isName_ofList hslash hempty hone
    have hsteps : parts path = steps (above.reverse ++ ['/']) ++ [String.ofList last.reverse] := by
      rw [hpath, List.reverse_append, List.reverse_cons, List.append_assoc]
      have happend := hname.steps_append above.reverse
      rw [String.toList_ofList] at happend
      exact happend
    rw [hsteps, List.getLast?_concat] at hlast
    obtain rfl := Option.some.inj hlast
    exact ⟨hname, by rw [hsteps, hparent, List.reverse_cons]⟩

/-! ## 4. Staging paths -/

theorem isName_stagingSuffix : IsName stagingSuffix := ⟨by decide, by decide⟩

theorem append_stagingSuffix_ne {name : String} (h : IsName name) (other : String)
    (hother : other.toList.length ≤ stagingSuffix.toList.length) : name ++ stagingSuffix ≠ other := by
  intro heq
  have hlength := congrArg (fun s => s.toList.length) heq
  simp only [String.toList_append, List.length_append] at hlength
  have hempty : name.toList = [] := List.length_eq_zero_iff.mp (by omega)
  have hstep := h.step
  rw [String.toList_eq_nil_iff.mp hempty] at hstep
  exact Bool.false_ne_true hstep

theorem IsName.staged {name : String} (h : IsName name) : IsName (name ++ stagingSuffix) := by
  constructor
  · rw [String.toList_append, List.mem_append]
    exact not_or.mpr ⟨h.plain, isName_stagingSuffix.plain⟩
  · unfold isStep
    rw [bne_iff_ne.mpr (append_stagingSuffix_ne h "" (by decide)),
      bne_iff_ne.mpr (append_stagingSuffix_ne h "." (by decide))]
    rfl

/-- The steps of a staging path: the last name of the target with the suffix, or the suffix below a
    target that does not end in a name. -/
theorem parts_staging (path : String) :
    (∃ above name, parts path = above ++ [name] ∧ IsName name ∧
        parts (staging path) = above ++ [name ++ stagingSuffix]) ∨
      parts (staging path) = parts path ++ [stagingSuffix] := by
  unfold staging
  cases h : fileName? path with
  | none => exact .inr (parts_join path isName_stagingSuffix)
  | some name =>
    obtain ⟨hname, hparts⟩ := parts_parent h
    exact .inl ⟨parts (parent path), name, hparts, hname, parts_join _ hname.staged⟩

/-- Files that are staged at one path have one target. -/
theorem parts_eq_of_parts_staging_eq {p q : String}
    (h : parts (staging p) = parts (staging q)) : parts p = parts q := by
  have hsuffix {name : String} (hname : IsName name) : name ++ stagingSuffix ≠ stagingSuffix :=
    append_stagingSuffix_ne hname stagingSuffix (Nat.le_refl _)
  rcases parts_staging p with ⟨above, name, hp, hname, hps⟩ | hps <;>
    rcases parts_staging q with ⟨below, other, hq, hother, hqs⟩ | hqs
  all_goals
    rw [hps, hqs] at h
    obtain ⟨habove, hlast⟩ := List.append_inj' h rfl
  · rw [hp, hq, habove, (String.append_left_inj stagingSuffix).mp (List.singleton_inj.mp hlast)]
  · exact absurd (List.singleton_inj.mp hlast) (hsuffix hname)
  · exact absurd (List.singleton_inj.mp hlast).symm (hsuffix hother)
  · exact habove

/-- No file is staged at its target. -/
theorem parts_staging_ne (path : String) : parts (staging path) ≠ parts path := by
  intro h
  rcases parts_staging path with ⟨above, name, hp, hname, hps⟩ | hps
  · rw [hps, hp] at h
    have hlast := List.singleton_inj.mp (List.append_cancel_left h)
    have hlength := congrArg (fun s => s.toList.length) hlast
    have hsuffix : stagingSuffix.toList.length = 10 := by decide
    rw [String.toList_append, List.length_append] at hlength
    omega
  · rw [hps] at h
    exact absurd (List.append_right_eq_self.mp h) (List.cons_ne_nil _ _)

end FilePath

end Sm83Codegen
